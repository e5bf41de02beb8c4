import TradingStrategy.Feature.Registry

/-!
What the features of the default catalogue read.

Owns:
- `Alike`: two views show the same to a reader of some names that looks a limited number of bars back;
- `Feature.Local`: a feature that depends on nothing else, and on its own values only one bar back;
- `default_local`: every feature of the default catalogue is local within fifty bars, the current one among them.
-/

namespace TradingStrategy

/-- The values of a name in some snapshots. -/
def column (name : String) (snapshots : List Snapshot) : List (Option Float) :=
  snapshots.map fun snapshot => snapshot.get? name

namespace View

variable {view other : View} {reach : Nat} {names : List String} {own name : String}

/-- The newest snapshots of a view, the current one first. -/
def visible (view : View) (reach : Nat) : List Snapshot :=
  (view.current :: view.past).take reach

/-- The times of the visible snapshots, the values of some names in them, and one further value of the bar before. -/
structure Alike (reach : Nat) (names : List String) (own : String) (view other : View) : Prop where
  times : (view.visible reach).map Snapshot.timestamp = (other.visible reach).map Snapshot.timestamp
  named : ∀ name ∈ names, column name (view.visible reach) = column name (other.visible reach)
  carried : view.value? own 1 = other.value? own 1

theorem snapshot?_visible {offset : Nat} (near : offset < reach) :
    view.snapshot? offset = (view.visible reach)[offset]? := by
  rw [visible, List.getElem?_take_of_lt near]
  cases offset <;> rfl

theorem value?_visible {offset : Nat} (near : offset < reach) :
    view.value? name offset = (column name (view.visible reach))[offset]?.join := by
  rw [value?, snapshot?_visible near, column, List.getElem?_map]
  cases (view.visible reach)[offset]? <;> rfl

theorem visible_length : (view.visible reach).length = min reach view.depth := by
  simp [visible, depth]

theorem window?_visible {count : Nat} (near : count ≤ reach) :
    view.window? name count =
      if count = 0 ∨ (view.visible reach).length < count then none
      else ((column name (view.visible reach)).take count).mapM finite? := by
  have shorter : (view.visible reach).length < count ↔ view.depth < count := by
    rw [visible_length]
    omega
  have cut : (column name (view.visible reach)).take count = column name ((view.current :: view.past).take count) := by
    rw [column, ← List.map_take, visible, List.take_take, Nat.min_eq_left near]
    rfl
  simp only [window?, shorter, cut]
  rw [column, List.mapM_map]
  rfl

namespace Alike

/-- Views are alike if their current snapshots and all that went before agree on what is read. -/
theorem ofColumns {current otherCurrent : Snapshot} {past otherPast : List Snapshot}
    (time : current.timestamp = otherCurrent.timestamp)
    (times : past.map Snapshot.timestamp = otherPast.map Snapshot.timestamp)
    (values : ∀ name ∈ names, current.get? name = otherCurrent.get? name)
    (columns : ∀ name ∈ own :: names, column name past = column name otherPast) :
    Alike reach names own ⟨current, past⟩ ⟨otherCurrent, otherPast⟩ where
  times := by
    rw [visible, visible, List.map_take, List.map_take, List.map_cons, List.map_cons, time, times]
  named name among := by
    have pastSame := columns name (List.mem_cons_of_mem own among)
    unfold column at pastSame ⊢
    rw [visible, visible, List.map_take, List.map_take, List.map_cons, List.map_cons, values name among, pastSame]
  carried := by
    have ownSame := columns own List.mem_cons_self
    have before : ∀ (current : Snapshot) (past : List Snapshot),
        View.value? ⟨current, past⟩ own 1 = (column own past).head?.join := by
      intro current past
      cases past <;> rfl
    rw [before, before, ownSame]

theorem value? (alike : Alike reach names own view other) (among : name ∈ names) {offset : Nat}
    (near : offset < reach) : view.value? name offset = other.value? name offset := by
  rw [value?_visible near, value?_visible near, alike.named name among]

theorem get (alike : Alike reach names own view other) (among : name ∈ names) {offset : Nat}
    (near : offset < reach) : view.get name offset = other.get name offset := by
  rw [View.get, View.get, alike.value? among near]

theorem window? (alike : Alike reach names own view other) (among : name ∈ names) {count : Nat}
    (near : count ≤ reach) : view.window? name count = other.window? name count := by
  have sameLength : (view.visible reach).length = (other.visible reach).length := by
    simpa using congrArg List.length alike.times
  rw [window?_visible near, window?_visible near, alike.named name among, sameLength]

theorem timestamp? (alike : Alike reach names own view other) {offset : Nat} (near : offset < reach) :
    view.timestamp? offset = other.timestamp? offset := by
  rw [View.timestamp?, View.timestamp?, snapshot?_visible near, snapshot?_visible near, ← List.getElem?_map,
    ← List.getElem?_map, alike.times]

end Alike

end View

namespace Feature

open View (Alike)

/-- A feature that reads nothing but its dependencies, the times of the bars and its own value of the bar before. -/
def Local (reach : Nat) (feature : Feature) : Prop :=
  ∀ view other, Alike reach feature.dependencies feature.name view other → feature.compute view = feature.compute other

variable {reach : Nat} (name source : String) {period : Nat}

/-! ### Averages -/

theorem windowMean_alike {names : List String} {own : String} {view other : View}
    (alike : Alike reach names own view other) {source : String} (among : source ∈ names) (near : period ≤ reach) :
    windowMean source period view = windowMean source period other := by
  rw [windowMean, windowMean, alike.window? among near]

theorem sma_local (near : max period 1 ≤ reach) : (sma name source period).Local reach := by
  intro view other alike
  exact windowMean_alike alike (List.mem_singleton_self source) near

theorem recursiveAverage_local (continued : Float → Float → Float) (near : period ≤ reach) (past : 1 < reach) :
    (recursiveAverage name source period continued).Local reach := by
  intro view other alike
  have among : source ∈ [source] := List.mem_singleton_self source
  have current : view.get source 0 = other.get source 0 := alike.get among (by omega)
  have previous : view.get name 1 = other.get name 1 := by
    rw [View.get, View.get]
    exact congrArg (Option.getD · Number.nan) alike.carried
  have restart := windowMean_alike alike among near
  simp only [recursiveAverage, current, previous, restart]

theorem ema_local (near : max period 1 ≤ reach) (past : 1 < reach) : (ema name source period).Local reach :=
  recursiveAverage_local name source _ near past

theorem wilder_local (near : max period 1 ≤ reach) (past : 1 < reach) : (wilder name source period).Local reach :=
  recursiveAverage_local name source _ near past

theorem wma_local (near : max period 1 ≤ reach) : (wma name source period).Local reach := by
  intro view other alike
  have window := alike.window? (List.mem_singleton_self source) near
  simp only [wma, window]

theorem deviation_local (near : max period 1 ≤ reach) : (deviation name source period).Local reach := by
  intro view other alike
  have window := alike.window? (List.mem_singleton_self source) near
  simp only [deviation, window]

theorem band_local (multiplier : Float) (near : period ≤ reach) (now : 0 < reach) :
    (band name period multiplier).Local reach := by
  intro view other alike
  have middle : view.get "bb_middle" 0 = other.get "bb_middle" 0 := alike.get (by simp [band]) now
  have window : view.window? "close" period = other.window? "close" period := alike.window? (by simp [band]) near
  simp only [band, middle, window]

theorem bands_local (multiplier : Float) (near : max period 1 ≤ reach) :
    ∀ feature ∈ bands period multiplier, feature.Local reach := by
  have now : 0 < reach := by omega
  simp only [bands, List.forall_mem_cons]
  refine ⟨sma_local _ _ (by omega), band_local _ _ near now, band_local _ _ near now, by simp⟩

/-! ### Momentum -/

theorem roc_local (near : max period 1 < reach) : (roc name source period).Local reach := by
  intro view other alike
  have among : source ∈ [source] := List.mem_singleton_self source
  have current : view.get source 0 = other.get source 0 := alike.get among (by omega)
  have base : view.get source (max period 1) = other.get source (max period 1) := alike.get among near
  simp only [roc, current, base]

theorem rsi_local (near : max period 1 ≤ reach) (past : 1 < reach) :
    ∀ feature ∈ rsi name period, feature.Local reach := by
  simp only [rsi, List.forall_mem_cons]
  refine ⟨wilder_local _ _ near past, wilder_local _ _ near past, ?_, by simp⟩
  intro view other alike
  have now : 0 < reach := by omega
  have gain := alike.get List.mem_cons_self now
  have loss := alike.get (List.mem_cons_of_mem _ List.mem_cons_self) now
  simp only [gain, loss]

theorem difference_local (left right : String) (now : 0 < reach) : (difference name left right).Local reach := by
  intro view other alike
  have first : view.get left 0 = other.get left 0 := alike.get (by simp [difference]) now
  have second : view.get right 0 = other.get right 0 := alike.get (by simp [difference]) now
  simp only [difference, first, second]

theorem macd_local (fast slow : Nat) {signal : Nat} (near : max signal 1 ≤ reach) (past : 1 < reach) :
    ∀ feature ∈ macd fast slow signal, feature.Local reach := by
  have now : 0 < reach := by omega
  simp only [macd, List.forall_mem_cons]
  exact ⟨difference_local _ _ _ now, ema_local _ _ near past, difference_local _ _ _ now, by simp⟩

/-! ### Volume and the shape of bars -/

theorem obv_local (past : 1 < reach) : obv.Local reach := by
  intro view other alike
  have now : 0 < reach := by omega
  have volume : view.get "volume" 0 = other.get "volume" 0 := alike.get (by simp [obv]) now
  have close : view.get "close" 0 = other.get "close" 0 := alike.get (by simp [obv]) now
  have previousClose : view.get "close" 1 = other.get "close" 1 := alike.get (by simp [obv]) past
  have previous : view.value? "obv" 1 = other.value? "obv" 1 := alike.carried
  simp only [obv, volume, close, previousClose, previous]

theorem daySum_local {term : View → Float} (past : 1 < reach)
    (ofBar : ∀ view other, (∀ source ∈ ["high", "low", "close", "volume"], view.get source 0 = other.get source 0) →
      term view = term other) :
    (daySum name term).Local reach := by
  intro view other alike
  have now : 0 < reach := by omega
  have same : sameDay view = sameDay other := by
    rw [sameDay, sameDay, alike.timestamp? now, alike.timestamp? past]
  have previous : view.value? name 1 = other.value? name 1 := alike.carried
  have added : term view = term other := ofBar view other fun source among => alike.get among now
  simp only [daySum, same, previous, added]

theorem ratio_local (numerator denominator : String) (now : 0 < reach) :
    (ratio name numerator denominator).Local reach := by
  intro view other alike
  have above : view.get numerator 0 = other.get numerator 0 := alike.get (by simp [ratio]) now
  have below : view.get denominator 0 = other.get denominator 0 := alike.get (by simp [ratio]) now
  simp only [ratio, above, below]

theorem vwap_local (past : 1 < reach) : ∀ feature ∈ vwap, feature.Local reach := by
  simp only [vwap, List.forall_mem_cons]
  refine ⟨daySum_local _ past ?_, daySum_local _ past ?_, ratio_local _ _ _ (by omega), by simp⟩
  · intro view other same
    rw [same "high" (by simp), same "low" (by simp), same "close" (by simp), same "volume" (by simp)]
  · intro view other same
    exact same "volume" (by simp)

/-- A shape is local, if it comes from values of its dependencies at this bar and at the one before. -/
theorem shape_local {dependencies : List String} {compute : View → Float} (past : 1 < reach)
    (ofTwoBars : ∀ view other : View, (∀ source ∈ dependencies, ∀ offset < 2,
      view.value? source offset = other.value? source offset) → compute view = compute other) :
    (shape name dependencies compute).Local reach := by
  intro view other alike
  apply ofTwoBars
  intro source among offset recent
  exact alike.value? among (by omega)

theorem shapes_local (near : 20 ≤ reach) : ∀ feature ∈ shapes, feature.Local reach := by
  have past : 1 < reach := by omega
  simp only [shapes, List.forall_mem_cons]
  refine ⟨shape_local _ past ?_, shape_local _ past ?_, shape_local _ past ?_, shape_local _ past ?_,
    shape_local _ past ?_, shape_local _ past ?_, shape_local _ past ?_, shape_local _ past ?_,
    sma_local _ _ (by omega), ratio_local _ _ _ (by omega), by simp⟩
  all_goals
    intro view other same
    simp [trueRangeAt, closeChange, View.get, same]

/-! ### The catalogue -/

/-- No feature of the default catalogue looks further back than forty-nine bars, or at what it does not declare. -/
theorem defaultFeatures_local : ∀ feature ∈ defaultFeatures, feature.Local 50 := by
  have past : 1 < 50 := by decide
  simp only [defaultFeatures, List.forall_mem_append, List.forall_mem_cons, atr]
  refine ⟨⟨⟨⟨⟨⟨⟨?averages, rsi_local _ (by decide) past⟩, rsi_local _ (by decide) past⟩,
    rsi_local _ (by decide) past⟩, bands_local _ (by decide)⟩, macd_local _ _ (by decide) past⟩, vwap_local past⟩,
    shapes_local (by decide)⟩
  case averages =>
    exact ⟨sma_local _ _ (by decide), sma_local _ _ (by decide), sma_local _ _ (by decide),
      ema_local _ _ (by decide) past, ema_local _ _ (by decide) past, ema_local _ _ (by decide) past,
      ema_local _ _ (by decide) past, ema_local _ _ (by decide) past, ema_local _ _ (by decide) past,
      wma_local _ _ (by decide), deviation_local _ _ (by decide), roc_local _ _ (by decide), obv_local past,
      wilder_local _ _ (by decide) past, wilder_local _ _ (by decide) past, by simp⟩

end Feature

namespace Registry

theorem mem_insertFeature {feature other : Feature} {features : List Feature}
    (member : other ∈ insertFeature feature features) : other = feature ∨ other ∈ features := by
  induction features with
  | nil => exact .inl (List.mem_singleton.mp member)
  | cons head rest inductionHypothesis =>
    rw [insertFeature] at member
    split at member
    · exact List.mem_cons.mp member
    · rcases List.mem_cons.mp member with isHead | later
      · exact .inr (isHead ▸ List.mem_cons_self)
      · exact (inductionHypothesis later).imp_right (List.mem_cons_of_mem head)

theorem mem_register {registry more : Registry} {feature other : Feature} (added : registry.register feature = .ok more)
    (member : other ∈ more.features) : other = feature ∨ other ∈ registry.features := by
  unfold register at added
  split at added
  · contradiction
  · split at added
    · contradiction
    · rw [← Except.ok.inj added] at member
      exact mem_insertFeature member

theorem mem_registerAll {registry : Registry} {features : List Feature} {feature : Feature}
    (member : feature ∈ (registry.registerAll features).features) : feature ∈ features ∨ feature ∈ registry.features := by
  induction features generalizing registry with
  | nil => exact .inr member
  | cons first rest inductionHypothesis =>
    rw [registerAll, List.foldl_cons] at member
    rcases inductionHypothesis member with later | earlier
    · exact .inl (List.mem_cons_of_mem first later)
    · cases added : registry.register first with
      | error refusal =>
        rw [added] at earlier
        exact .inr earlier
      | ok more =>
        rw [added] at earlier
        rcases mem_register added earlier with rfl | known
        · exact .inl List.mem_cons_self
        · exact .inr known

theorem default_local : ∀ feature ∈ Registry.default.features, feature.Local 50 := by
  intro feature member
  rcases mem_registerAll member with listed | none
  · exact Feature.defaultFeatures_local feature listed
  · exact absurd none List.not_mem_nil

end Registry

end TradingStrategy

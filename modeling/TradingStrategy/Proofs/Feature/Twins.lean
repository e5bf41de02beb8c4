import TradingStrategy.Proofs.Feature.Catalogue
import TradingStrategy.Proofs.Feature.Rows

/-!
Features of the default catalogue that are defined twice.

Owns:
- `columns_agree`: two features that compute alike as long as they carry alike have the same values at every bar;
- `rsi_agree`, `band_of_deviation`: strengths of one period agree under any two names, and the bands are made of their
  middle and the deviation of the close;
- `default_twins_agree`: so the short names and the bands of the default catalogue never drift from their twins.

A recursive average reads its own value at the bar before, under its own name. That two of them agree is shown by
induction over the bars; what is computed from them agrees bar by bar.
-/

namespace TradingStrategy

namespace Pipeline

/-! ### Twins -/

section

variable {pipeline : Pipeline} {reach otherReach period capacity : Nat} {bars : List Bar}

/-- The rows of a run hold the same value of two names at a bar. -/
def AgreeAt (rows : List Snapshot) (name other : String) (bar : Nat) : Prop :=
  ∃ value, valueAt rows name bar = some value ∧ valueAt rows other bar = some value

/-- Two features that compute the same wherever their values at the bar before are the same have the same values at
every bar. -/
theorem columns_agree {feature other : Feature} (computes : Computes pipeline.steps feature)
    (otherComputes : Computes pipeline.steps other) (isLocal : feature.Local reach)
    (otherLocal : other.Local otherReach)
    (alike : ∀ {bar : Nat} {view : View},
      View.at? (pipeline.snapshots (.empty capacity) bars) (History.empty capacity).capacity bar = some view →
      view.value? feature.name 1 = view.value? other.name 1 → feature.compute view = other.compute view) {bar : Nat}
    (inside : bar < bars.length) : AgreeAt (pipeline.snapshots (.empty capacity) bars) feature.name other.name bar := by
  obtain ⟨view, isView, _⟩ := view_at pipeline capacity (List.getElem?_eq_getElem inside)
  refine ⟨other.compute view, ?_, value_at otherComputes otherLocal isView⟩
  rw [value_at computes isLocal isView]
  apply congrArg some
  apply alike isView
  have someKept := History.empty_kept capacity
  rw [View.at?_valueBefore isView someKept, View.at?_valueBefore isView someKept]
  cases bar with
  | zero => rfl
  | succ before =>
    obtain ⟨value, isValue, isOther⟩ := columns_agree computes otherComputes isLocal otherLocal alike
      (Nat.lt_of_succ_lt inside)
    rw [valueBefore, valueBefore, isValue, isOther]

theorem get_agree {bar : Nat} {view : View} {name other : String}
    (isView : View.at? (pipeline.snapshots (.empty capacity) bars) (History.empty capacity).capacity bar = some view)
    (agree : AgreeAt (pipeline.snapshots (.empty capacity) bars) name other bar) :
    view.get name 0 = view.get other 0 := by
  obtain ⟨value, isValue, isOther⟩ := agree
  rw [View.get, View.get, View.at?_value? isView, View.at?_value? isView, isValue, isOther]

/-- Wilder averages of one source and one period agree under any two names. -/
theorem wilder_agree {name other source : String}
    (computes : Computes pipeline.steps (Feature.wilder name source period))
    (otherComputes : Computes pipeline.steps (Feature.wilder other source period)) {bar : Nat}
    (inside : bar < bars.length) : AgreeAt (pipeline.snapshots (.empty capacity) bars) name other bar := by
  have near : max period 1 ≤ max period 1 + 1 := Nat.le_succ _
  have past : 1 < max period 1 + 1 := by omega
  apply columns_agree computes otherComputes (Feature.wilder_local name source near past)
    (Feature.wilder_local other source near past) _ inside
  intro bar view isView carried
  have previous : view.get name 1 = view.get other 1 := by
    rw [View.get, View.get]
    exact congrArg (Option.getD · Number.nan) carried
  simp only [Feature.wilder, Feature.recursiveAverage, previous]

/-- Simple averages of one source and one period agree under any two names. -/
theorem sma_agree {name other source : String} (computes : Computes pipeline.steps (Feature.sma name source period))
    (otherComputes : Computes pipeline.steps (Feature.sma other source period)) {bar : Nat}
    (inside : bar < bars.length) : AgreeAt (pipeline.snapshots (.empty capacity) bars) name other bar :=
  columns_agree computes otherComputes (Feature.sma_local name source (Nat.le_refl _))
    (Feature.sma_local other source (Nat.le_refl _)) (fun _ _ => rfl) inside

/-- Strengths of one period agree under any two names, although each reads averages of its own. -/
theorem rsi_agree {name other : String}
    (computes : ∀ feature ∈ Feature.rsi name period, Computes pipeline.steps feature)
    (otherComputes : ∀ feature ∈ Feature.rsi other period, Computes pipeline.steps feature) {bar : Nat}
    (inside : bar < bars.length) : AgreeAt (pipeline.snapshots (.empty capacity) bars) name other bar := by
  have near : max period 1 ≤ max period 1 + 1 := Nat.le_succ _
  have past : 1 < max period 1 + 1 := by omega
  have areLocal := Feature.rsi_local name near past
  have otherLocal := Feature.rsi_local other near past
  simp only [Feature.rsi, List.forall_mem_cons] at computes otherComputes areLocal otherLocal
  obtain ⟨gain, loss, strength, _⟩ := computes
  obtain ⟨otherGain, otherLoss, otherStrength, _⟩ := otherComputes
  apply columns_agree strength otherStrength areLocal.2.2.1 otherLocal.2.2.1 _ inside
  intro bar view isView _
  have within := lt_length_of_view isView
  simp only [get_agree isView (wilder_agree gain otherGain within),
    get_agree isView (wilder_agree loss otherLoss within)]

/-- A band is its middle and a multiple of the deviation of the close where the middle is finite, and no number
elsewhere. -/
theorem band_of_deviation {name deviation : String} {multiplier : Float} (positive : 0 < period)
    (middleComputes : Computes pipeline.steps (Feature.sma "bb_middle" "close" period))
    (deviationComputes : Computes pipeline.steps (Feature.deviation deviation "close" period))
    (bandComputes : Computes pipeline.steps (Feature.band name period multiplier)) {bar : Nat}
    (inside : bar < bars.length) :
    let rows := pipeline.snapshots (.empty capacity) bars
    ∃ middle spread, valueAt rows "bb_middle" bar = some middle ∧ valueAt rows deviation bar = some spread ∧
      valueAt rows name bar = some (if middle.isFinite then middle + multiplier * spread else Number.nan) := by
  intro rows
  obtain ⟨view, isView, _⟩ := view_at pipeline capacity (List.getElem?_eq_getElem inside)
  have near : max period 1 ≤ period := Nat.max_le.mpr ⟨Nat.le_refl period, positive⟩
  have atPeriod : max period 1 = period := Nat.max_eq_left positive
  have middleAt := value_at middleComputes (Feature.sma_local _ _ near) isView
  have deviationAt := value_at deviationComputes (Feature.deviation_local _ _ near) isView
  have bandAt := value_at bandComputes (Feature.band_local _ _ (Nat.le_refl period) positive) isView
  have middleNow : view.get "bb_middle" 0 = Feature.windowMean "close" period view := by
    rw [View.get, View.at?_value? isView]
    simp only [Feature.sma, atPeriod] at middleAt
    rw [middleAt, Option.getD_some]
  refine ⟨_, _, middleAt, deviationAt, bandAt.trans ?_⟩
  simp only [Feature.band, Feature.sma, Feature.deviation, middleNow, atPeriod]
  -- Without a window the middle is no number either.
  cases isWindow : view.window? "close" period with
  | some window => rfl
  | none =>
    have notFinite : (Feature.windowMean "close" period view).isFinite = false := by
      rw [Feature.windowMean, isWindow]
      exact (by decide : Number.nan.isFinite = false)
    simp [notFinite]

end

/-! ### The default catalogue -/

/-- The short names of the default catalogue, each with the name that has the same definition. -/
def defaultTwins : List (String × String) :=
  [("rsi", "rsi_14"), ("atr", "atr_14"), ("bb_middle", "sma_20")]

/-- The bands of the default catalogue, each with its multiple of the deviation. -/
def defaultBands : List (String × Float) :=
  [("bb_upper", 2.0), ("bb_lower", -2.0)]

section

variable {plan : List FeatureDescriptor} {steps : List Feature} (ready : Ready .default steps)
  (planned : ∀ feature ∈ defaultFeatures, feature.name ∈ Registry.namesOf plan → feature ∈ steps)
include ready planned

theorem rsi_computes {name : String} {period : Nat}
    (listed : ∀ feature ∈ Feature.rsi name period, feature ∈ defaultFeatures)
    (inPlan : name ∈ Registry.namesOf plan) : ∀ feature ∈ Feature.rsi name period, Computes steps feature := by
  simp only [Feature.rsi, List.forall_mem_cons] at listed ⊢
  obtain ⟨gainListed, lossListed, strengthListed, _⟩ := listed
  have strength := planned _ strengthListed inPlan
  have gain := ready.mem_declared strength gainListed List.mem_cons_self
  have loss := ready.mem_declared strength lossListed (List.mem_cons_of_mem _ List.mem_cons_self)
  exact ⟨ready.arranged.computes gain, ready.arranged.computes loss, ready.arranged.computes strength,
    List.forall_mem_nil _⟩

theorem default_band {name : String} {multiplier : Float} (listed : .band name 20 multiplier ∈ defaultFeatures)
    (inPlan : name ∈ Registry.namesOf plan) (deviationInPlan : "stddev_20" ∈ Registry.namesOf plan) {capacity bar : Nat}
    {bars : List Bar} (inside : bar < bars.length) :
    let rows := Pipeline.snapshots ⟨steps⟩ (.empty capacity) bars
    ∃ middle spread, valueAt rows "bb_middle" bar = some middle ∧ valueAt rows "stddev_20" bar = some spread ∧
      valueAt rows name bar = some (if middle.isFinite then middle + multiplier * spread else Number.nan) := by
  have band := planned _ listed inPlan
  have middle : Feature.sma "bb_middle" "close" 20 ∈ steps :=
    ready.mem_declared band (by simp [defaultFeatures, Feature.bands]) List.mem_cons_self
  have deviation : Feature.deviation "stddev_20" "close" 20 ∈ steps :=
    planned _ (by simp [defaultFeatures]) deviationInPlan
  have computes {feature : Feature} (member : feature ∈ steps) : Computes steps feature :=
    ready.arranged.computes member
  exact band_of_deviation (by decide) (computes middle) (computes deviation) (computes band) inside

end

/-- In every run of every plan of the default registry that has them, the short names agree with their twins at every
bar, and a band is the middle and its multiple of the deviation where the middle is finite and no number elsewhere,
whatever the history keeps. -/
theorem default_twins_agree {requested : List String} {plan : List FeatureDescriptor}
    (resolved : Registry.default.resolvePlan requested = .ok plan) :
    ∃ pipeline, ofPlan plan .default = .ok pipeline ∧ ∀ (capacity : Nat) (bars : List Bar),
      let rows := pipeline.snapshots (.empty capacity) bars
      (∀ twin ∈ defaultTwins, twin.1 ∈ Registry.namesOf plan → twin.2 ∈ Registry.namesOf plan →
        ∀ bar < bars.length, AgreeAt rows twin.1 twin.2 bar) ∧
      ∀ band ∈ defaultBands, band.1 ∈ Registry.namesOf plan → "stddev_20" ∈ Registry.namesOf plan →
        ∀ bar < bars.length, ∃ middle spread, valueAt rows "bb_middle" bar = some middle ∧
          valueAt rows "stddev_20" bar = some spread ∧
          valueAt rows band.1 bar = some (if middle.isFinite then middle + band.2 * spread else Number.nan) := by
  obtain ⟨steps, bound, ready, planned⟩ := default_planned resolved
  refine ⟨⟨steps⟩, bound, ?_⟩
  intro capacity bars rows
  have computes {feature : Feature} (listed : feature ∈ defaultFeatures)
      (inPlan : feature.name ∈ Registry.namesOf plan) : Computes steps feature :=
    ready.arranged.computes (planned feature listed inPlan)
  constructor
  · simp only [defaultTwins, List.forall_mem_cons]
    refine ⟨?_, ?_, ?_, List.forall_mem_nil _⟩
    · intro rsiInPlan twinInPlan bar inside
      have strength : ∀ feature ∈ Feature.rsi "rsi" 14, Computes steps feature :=
        rsi_computes ready planned (by simp +contextual [defaultFeatures]) rsiInPlan
      have twin : ∀ feature ∈ Feature.rsi "rsi_14" 14, Computes steps feature :=
        rsi_computes ready planned (by simp +contextual [defaultFeatures]) twinInPlan
      exact rsi_agree strength twin inside
    · intro atrInPlan twinInPlan bar inside
      have range : Computes steps (.atr "atr" 14) := computes (by simp [defaultFeatures]) atrInPlan
      have twin : Computes steps (.atr "atr_14" 14) := computes (by simp [defaultFeatures]) twinInPlan
      exact wilder_agree range twin inside
    · intro middleInPlan twinInPlan bar inside
      have middle : Computes steps (.sma "bb_middle" "close" 20) :=
        computes (by simp [defaultFeatures, Feature.bands]) middleInPlan
      have twin : Computes steps (.sma "sma_20" "close" 20) := computes (by simp [defaultFeatures]) twinInPlan
      exact sma_agree middle twin inside
  · simp only [defaultBands, List.forall_mem_cons]
    refine ⟨?_, ?_, List.forall_mem_nil _⟩
    · intro inPlan deviationInPlan bar inside
      exact default_band ready planned (by simp [defaultFeatures, Feature.bands]) inPlan deviationInPlan inside
    · intro inPlan deviationInPlan bar inside
      exact default_band ready planned (by simp [defaultFeatures, Feature.bands]) inPlan deviationInPlan inside

/-- One request of all that the twins speak of. -/
theorem twins_in_one_plan :
    let names := ["rsi", "rsi_14", "atr", "atr_14", "bb_middle", "sma_20", "bb_upper", "bb_lower", "stddev_20"]
    ∃ plan pipeline, Registry.default.resolvePlan names = .ok plan ∧ (∀ name ∈ names, name ∈ Registry.namesOf plan) ∧
      ofPlan plan .default = .ok pipeline ∧ ∀ (capacity : Nat) (bars : List Bar),
        let rows := pipeline.snapshots (.empty capacity) bars
        ∀ bar < bars.length, (∀ twin ∈ defaultTwins, AgreeAt rows twin.1 twin.2 bar) ∧
          ∀ band ∈ defaultBands, ∃ middle spread, valueAt rows "bb_middle" bar = some middle ∧
            valueAt rows "stddev_20" bar = some spread ∧
            valueAt rows band.1 bar = some (if middle.isFinite then middle + band.2 * spread else Number.nan) := by
  intro names
  have listed : ∀ name ∈ names, name ∈ defaultOrder := by decide
  obtain ⟨plan, resolved⟩ := default_plans fun name asked => default_contains.mpr (listed name asked)
  have planned : ∀ name ∈ names, name ∈ Registry.namesOf plan := by
    intro name asked
    exact (Registry.resolvePlan_grows resolved).covered name (List.mem_append_right _ asked)
  obtain ⟨pipeline, bound, agree⟩ := default_twins_agree resolved
  refine ⟨plan, pipeline, resolved, planned, bound, ?_⟩
  intro capacity bars rows bar inside
  obtain ⟨twins, bands⟩ := agree capacity bars
  have twinNames : ∀ twin ∈ defaultTwins, twin.1 ∈ names ∧ twin.2 ∈ names := by decide
  have bandNames : ∀ band ∈ defaultBands.map Prod.fst, band ∈ names := by decide
  constructor
  · intro twin among
    exact twins twin among (planned _ (twinNames twin among).1) (planned _ (twinNames twin among).2) bar inside
  · intro band among
    exact bands band among (planned _ (bandNames _ (List.mem_map_of_mem among))) (planned "stddev_20" (by decide)) bar
      inside

end Pipeline

end TradingStrategy

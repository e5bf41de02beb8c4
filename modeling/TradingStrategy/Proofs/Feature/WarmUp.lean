import TradingStrategy.Proofs.Feature.Rows

/-!
When moving averages warm up.

Owns:
- `MovingAverage`: the averages over windows, with the formula of a full window and the recurrence of those that
  continue from their own value;
- `MovingAverage.rule`: how an average comes to its value at a view;
- `MovingAverage.IsCold`: too few bars, or a value of the window that is missing or not finite;
- `averages_warm_up_exactly`: an average warms up by its own rule exactly at the bars at which it is cold.

A recursive average decides by its own value at the bar before and does not look at the window then. Its rule agrees
with that of a plain window by induction over the bars: where it has a finite value it was warm, and one more finite
value of the source keeps it warm.
-/

namespace TradingStrategy

/-- The averages that are taken over a window. -/
inductive AverageKind where
  | simple | weighted | deviation | exponential | wilder
deriving Repr, DecidableEq

/-- An average of a source over a number of bars. -/
structure MovingAverage where
  kind : AverageKind
  name : String
  source : String
  period : Nat
  positive : 1 ≤ period

namespace MovingAverage

/-- How an average comes to its value. -/
inductive Rule where
  | warmUp
  | window (values : List Float)
  | recurrence (continued : Float → Float → Float) (previous current : Float)

section

variable (average : MovingAverage)

def feature : Feature :=
  match average.kind with
  | .simple => .sma average.name average.source average.period
  | .weighted => .wma average.name average.source average.period
  | .deviation => .deviation average.name average.source average.period
  | .exponential => .ema average.name average.source average.period
  | .wilder => .wilder average.name average.source average.period

/-- What a full window gives, newest value first: the mean, the mean with weights that fall by one from the period to
one, or the root of the mean square distance from the mean. The recursive averages start with the mean. Every sum runs
from the newest value to the oldest, from the negative zero on. -/
def formula (window : List Float) : Float :=
  let count := Float.ofNat average.period
  let mean := window.foldl (fun total value => total + value) (-0.0) / count
  match average.kind with
  | .simple | .exponential | .wilder => mean
  | .weighted =>
      let total := window.zipIdx.foldl
        (fun total (value, age) => total + Float.ofNat (average.period - age) * value) (-0.0)
      total / (Float.ofNat (average.period * (average.period + 1)) / 2.0)
  | .deviation =>
      let squares := window.foldl (fun total value => total + (value - mean) * (value - mean)) (-0.0)
      (squares / count).sqrt

/-- How a recursive average continues from its value at the bar before with the present value of its source. -/
def recurrence? : Option (Float → Float → Float) :=
  match average.kind with
  | .simple | .weighted | .deviation => none
  | .exponential => some fun previous current =>
      let weight := 2.0 / (Float.ofNat average.period + 1.0)
      current * weight + previous * (1.0 - weight)
  | .wilder => some fun previous current =>
      (previous * (Float.ofNat average.period - 1.0) + current) / Float.ofNat average.period

def value : Rule → Float
  | .warmUp => Number.nan
  | .window values => average.formula values
  | .recurrence continued previous current => continued previous current

/-- A full window of finite values, and a warm-up where there is none. -/
def windowRule (view : View) : Rule :=
  match view.window? average.source average.period with
  | some values => .window values
  | none => .warmUp

/-- An average with a recurrence asks for its own value at the bar before, and for a window only if that or the present
value of the source is not finite. -/
def rule (view : View) : Rule :=
  match average.recurrence? with
  | none => average.windowRule view
  | some continued =>
      let previous := view.get average.name 1
      let current := view.get average.source 0
      if previous.isFinite && current.isFinite then .recurrence continued previous current
      else average.windowRule view

/-- There are fewer bars than the period, counting those that are kept and the present one, or one of the newest values
of the source is missing or not finite. -/
def IsCold (rows : List Snapshot) (kept bar : Nat) : Prop :=
  1 + min bar kept < average.period ∨
    ∃ row ∈ newestRows rows bar average.period, View.finite? (row.get? average.source) = none

instance (rows : List Snapshot) (kept bar : Nat) : Decidable (average.IsCold rows kept bar) :=
  inferInstanceAs (Decidable (_ ∨ _))

/-- What an average follows that is not cold: its recurrence, if it has one and had a finite value at the bar before,
and the formula of the window if not. -/
def warmRule (previous? : Option Float) (current : Float) (older : List Float) : Rule :=
  match average.recurrence?, previous? with
  | some continued, some previous => .recurrence continued previous current
  | _, _ => .window (current :: older)

/-! ### The rule of a feature -/

theorem feature_name : average.feature.name = average.name := by
  unfold feature
  split <;> rfl

theorem weightedSum_eq_foldl (window : List Float) :
    Feature.weightedSum window =
      window.zipIdx.foldl (fun total (value, age) => total + Float.ofNat (window.length - age) * value) (-0.0) := by
  rw [Feature.weightedSum, sumOf, List.foldl_map]

theorem populationDeviation_eq_foldl (window : List Float) :
    let count := Float.ofNat window.length
    let mean := window.foldl (fun total value => total + value) (-0.0) / count
    Feature.populationDeviation window =
      (window.foldl (fun total value => total + (value - mean) * (value - mean)) (-0.0) / count).sqrt := by
  intro count mean
  rw [Feature.populationDeviation, sumOf, List.foldl_map]
  rfl

/-- A feature follows the rule of its average. A window that is there is as long as the period, so a sum over it may
count by either. -/
theorem compute_eq_value (view : View) : average.feature.compute view = average.value (average.rule view) := by
  obtain ⟨kind, name, source, period, positive⟩ := average
  have whole : max period 1 = period := Nat.max_eq_left positive
  cases kind with
  | simple | weighted | deviation =>
    simp only [feature, Feature.sma, Feature.wma, Feature.deviation, Feature.windowMean, whole, rule, recurrence?,
      windowRule]
    cases isWindow : view.window? source period with
    | none => rfl
    | some window =>
      obtain rfl := View.length_window? isWindow
      simp only [value, formula, Feature.mean, sumOf, weightedSum_eq_foldl, populationDeviation_eq_foldl]
  | exponential | wilder =>
    simp only [feature, Feature.ema, Feature.wilder, Feature.recursiveAverage, Feature.windowMean, whole, rule,
      recurrence?, windowRule]
    split
    · rfl
    · cases view.window? source period <;> rfl

theorem feature_local : average.feature.Local (average.period + 1) := by
  obtain ⟨kind, name, source, period, positive⟩ := average
  have near : max period 1 ≤ period + 1 := by omega
  have past : 1 < period + 1 := by omega
  cases kind with
  | simple => exact Feature.sma_local name source near
  | weighted => exact Feature.wma_local name source near
  | deviation => exact Feature.deviation_local name source near
  | exponential => exact Feature.ema_local name source near past
  | wilder => exact Feature.wilder_local name source near past

end

/-! ### Warm bars -/

section

variable {average : MovingAverage} {rows : List Snapshot} {kept bar : Nat} {view : View}

theorem windowRule_warmUp_iff (isView : View.at? rows kept bar = some view) :
    average.windowRule view = .warmUp ↔ average.IsCold rows kept bar := by
  rw [IsCold, ← View.at?_window?_eq_none isView average.positive, windowRule]
  cases view.window? average.source average.period <;> simp

/-- An average that is warm stays warm over one more finite value. -/
theorem warm_next {row : Snapshot} (warm : ¬average.IsCold rows kept bar) (stands : rows[bar + 1]? = some row)
    (finite : View.finite? (row.get? average.source) ≠ none) : ¬average.IsCold rows kept (bar + 1) := by
  obtain ⟨deep, full⟩ := not_or.mp warm
  refine not_or.mpr ⟨by omega, ?_⟩
  obtain ⟨before, isPeriod⟩ := Nat.exists_eq_add_one.mpr average.positive
  have fewer : newestRows rows bar before ⊆ newestRows rows bar average.period :=
    List.take_subset_take_left _ (by omega)
  rw [isPeriod, View.newestRows_succ stands]
  rintro ⟨other, member, missing⟩
  rcases List.mem_cons.mp member with rfl | earlier
  · exact finite missing
  · exact full ⟨other, fewer earlier, missing⟩

theorem rule_restart
    (notFinite : ¬((view.get average.name 1).isFinite = true ∧ (view.get average.source 0).isFinite = true)) :
    average.rule view = average.windowRule view := by
  rw [rule]
  split
  · rfl
  · exact if_neg (by simpa using notFinite)

/-- What a warm average follows, read off the rows. -/
theorem rule_eq_warmRule (isView : View.at? rows kept bar = some view) (someKept : 0 < kept)
    (warm : ¬average.IsCold rows kept bar) :
    ∃ current older, column average.source (newestRows rows bar average.period) = (current :: older).map some ∧
      average.rule view = average.warmRule (View.finite? (valueBefore rows average.name bar)) current older := by
  have there : view.window? average.source average.period ≠ none :=
    mt (View.at?_window?_eq_none isView average.positive).mp warm
  obtain ⟨values, isWindow⟩ := Option.ne_none_iff_exists'.mp there
  obtain ⟨_, areValues, allFinite⟩ := (View.at?_window?_eq_some isView average.positive).mp isWindow
  obtain ⟨current, older, rfl, isCurrent⟩ :
      ∃ current older, values = current :: older ∧ view.value? average.source 0 = some current := by
    obtain ⟨row, stands, rfl⟩ := View.at?_eq_some isView
    obtain ⟨before, isPeriod⟩ := Nat.exists_eq_add_one.mpr average.positive
    rw [isPeriod, View.newestRows_succ stands, column, List.map_cons] at areValues
    obtain ⟨current, older, rfl, isCurrent, _⟩ := List.map_eq_cons_iff.mp areValues.symm
    exact ⟨current, older, rfl, isCurrent.symm⟩
  refine ⟨current, older, areValues, ?_⟩
  have ofWindow : average.windowRule view = .window (current :: older) := by rw [windowRule, isWindow]
  have sameCurrent : view.get average.source 0 = current := by rw [View.get, isCurrent, Option.getD_some]
  have currentFinite := (List.forall_mem_cons.mp allFinite).1
  rw [← View.at?_valueBefore isView someKept]
  cases isPrevious : View.finite? (view.value? average.name 1) with
  | none =>
    have restart : average.rule view = average.windowRule view := rule_restart fun finite =>
      absurd finite.1 (by rw [View.get_not_finite isPrevious]; exact Bool.false_ne_true)
    rw [restart, ofWindow]
    unfold warmRule
    cases average.recurrence? <;> rfl
  | some previous =>
    obtain ⟨isThere, finite⟩ := Option.filter_eq_some_iff.mp isPrevious
    have samePrevious : view.get average.name 1 = previous := by rw [View.get, isThere, Option.getD_some]
    unfold rule warmRule
    rw [samePrevious, sameCurrent]
    cases average.recurrence? with
    | none => exact ofWindow
    | some continued => exact if_pos (Bool.and_eq_true_iff.mpr ⟨finite, currentFinite⟩)

end

/-! ### Runs -/

section

variable {pipeline : Pipeline} {average : MovingAverage} {capacity bar : Nat} {bars : List Bar} {view : View}
  (computes : Pipeline.Computes pipeline.steps average.feature)
  (isView : View.at? (pipeline.snapshots (.empty capacity) bars) (History.empty capacity).capacity bar = some view)
include computes isView

theorem valueAt_rule :
    valueAt (pipeline.snapshots (.empty capacity) bars) average.name bar =
      some (average.value (average.rule view)) := by
  rw [← average.feature_name, Pipeline.value_at computes average.feature_local isView, compute_eq_value]

/-- An average that continues from a finite value was warm when it took it. -/
theorem rule_eq_warmUp_iff :
    average.rule view = .warmUp ↔
      average.IsCold (pipeline.snapshots (.empty capacity) bars) (History.empty capacity).capacity bar := by
  have someKept := History.empty_kept capacity
  induction bar generalizing view with
  | zero =>
    have first : view.get average.name 1 = Number.nan := by
      rw [View.get, View.at?_valueBefore isView someKept]
      rfl
    rw [rule_restart (by rw [first]; exact fun finite => absurd finite.1 (by decide))]
    exact windowRule_warmUp_iff isView
  | succ before inductionHypothesis =>
    by_cases finite : (view.get average.name 1).isFinite = true ∧ (view.get average.source 0).isFinite = true
    · obtain ⟨earlier, isEarlier⟩ := View.exists_earlier isView
      have sameValue : view.get average.name 1 = average.value (average.rule earlier) := by
        rw [View.get, View.at?_valueBefore isView someKept, valueBefore, valueAt_rule computes isEarlier,
          Option.getD_some]
      have wasWarm : ¬average.IsCold (pipeline.snapshots (.empty capacity) bars) (History.empty capacity).capacity
          before := by
        intro cold
        rw [sameValue, (inductionHypothesis isEarlier).mpr cold] at finite
        exact absurd finite.1 (by decide : ¬Number.nan.isFinite = true)
      have staysWarm := warm_next wasWarm (View.at?_current isView) (View.finite?_of_get finite.2)
      refine iff_of_false ?_ staysWarm
      obtain ⟨current, older, _, isRule⟩ := rule_eq_warmRule isView someKept staysWarm
      rw [isRule]
      unfold warmRule
      split <;> simp
    · rw [rule_restart finite]
      exact windowRule_warmUp_iff isView

end

end MovingAverage

/-- At every bar of every run, whatever the history keeps, an average that is computed behind its source warms up by its
own rule exactly if it is cold: if the bar and the rows that are kept are fewer than its period, or if one of the newest
values of its source, as many as its period, is missing or not finite. Where it is warm it continues from the value at
the bar before, if it has a recurrence and that value is finite, and takes the formula of the window if not. -/
theorem averages_warm_up_exactly {pipeline : Pipeline} {average : MovingAverage}
    (computes : Pipeline.Computes pipeline.steps average.feature) (capacity : Nat) {bars : List Bar} {bar : Nat}
    (inside : bar < bars.length) :
    let rows := pipeline.snapshots (.empty capacity) bars
    let kept := (History.empty capacity).capacity
    ∃ view, View.at? rows kept bar = some view ∧
      valueAt rows average.name bar = some (average.value (average.rule view)) ∧
      (average.rule view = .warmUp ↔ average.IsCold rows kept bar) ∧
      (¬average.IsCold rows kept bar →
        ∃ current older, column average.source (newestRows rows bar average.period) = (current :: older).map some ∧
          average.rule view = average.warmRule (View.finite? (valueBefore rows average.name bar)) current older) := by
  intro rows kept
  obtain ⟨view, isView, _⟩ := Pipeline.view_at pipeline capacity (List.getElem?_eq_getElem inside)
  exact ⟨view, isView, average.valueAt_rule computes isView, average.rule_eq_warmUp_iff computes isView,
    average.rule_eq_warmRule isView (History.empty_kept capacity)⟩

/-! ### An average that is interrupted -/

/-- One average of every kind over the close, by periods of two and three bars. -/
def averagesOfClose : List MovingAverage :=
  [⟨.simple, "simple", "close", 3, by decide⟩, ⟨.weighted, "weighted", "close", 3, by decide⟩,
    ⟨.deviation, "deviation", "close", 2, by decide⟩, ⟨.exponential, "exponential", "close", 3, by decide⟩,
    ⟨.wilder, "wilder", "close", 3, by decide⟩]

/-- Bars with these closes, a minute apart. -/
def barsOfCloses (closes : List Float) : List Bar :=
  closes.zipIdx.map fun (close, minute) => ⟨"ACME", ⟨60 * minute, 0⟩, close, close, close, close, 1.0⟩

/-- After a close that is no number every average starts again behind a full window, the recursive ones like the others,
although two rows are kept only. -/
theorem interrupted_averages_start_again :
    let bars := barsOfCloses [3.0, 6.0, 9.0, 12.0, Number.nan, 2.0, 8.0, 14.0, 20.0]
    let pipeline : Pipeline := ⟨averagesOfClose.map MovingAverage.feature⟩
    let rows := pipeline.snapshots (.empty 2) bars
    (∀ average ∈ averagesOfClose,
      Pipeline.Computes pipeline.steps average.feature ∧ 7 < bars.length ∧
        (∃ view, View.at? rows (History.empty 2).capacity 7 = some view ∧ average.rule view ≠ .warmUp) ∧
        ¬average.IsCold rows (History.empty 2).capacity 7) ∧
      averagesOfClose.map (fun average => column average.name rows) =
        [[Number.nan, Number.nan, 6.0, 9.0, Number.nan, Number.nan, Number.nan, 8.0, 14.0],
          [Number.nan, Number.nan, 7.0, 10.0, Number.nan, Number.nan, Number.nan, 10.0, 16.0],
          [Number.nan, 1.5, 1.5, 1.5, Number.nan, Number.nan, 3.0, 3.0, 3.0],
          [Number.nan, Number.nan, 6.0, 9.0, Number.nan, Number.nan, Number.nan, 8.0, 14.0],
          [Number.nan, Number.nan, 6.0, 8.0, Number.nan, Number.nan, Number.nan, 8.0, 12.0]].map (List.map some) := by
  intro bars pipeline rows
  have computes : ∀ average ∈ averagesOfClose, Pipeline.Computes pipeline.steps average.feature := by
    simp only [averagesOfClose, List.forall_mem_cons]
    exact ⟨⟨[], _, rfl, by decide, by decide⟩, ⟨[_], _, rfl, by decide, by decide⟩,
      ⟨[_, _], _, rfl, by decide, by decide⟩, ⟨[_, _, _], _, rfl, by decide, by decide⟩,
      ⟨[_, _, _, _], _, rfl, by decide, by decide⟩, List.forall_mem_nil _⟩
  have warm : ∀ average ∈ averagesOfClose, ¬average.IsCold rows (History.empty 2).capacity 7 := by decide +kernel
  refine ⟨fun average member => ?_, by decide +kernel⟩
  have inside : 7 < bars.length := by decide
  obtain ⟨view, isView, _, cold, _⟩ := averages_warm_up_exactly (computes average member) 2 inside
  exact ⟨computes average member, inside, ⟨view, isView, mt cold.mp (warm average member)⟩, warm average member⟩

end TradingStrategy

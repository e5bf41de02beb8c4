import TradingStrategy.Proofs.Feature.Catalogue
import TradingStrategy.Proofs.Feature.Rows
import TradingStrategy.Proofs.Number.Sums

/-!
What the sums of a day add up.

Owns:
- `IsDayRun`: bars in a row of one date, with no other of that date in front of them;
- `dayTotal`: a sum over bars from zero on, first to last;
- `session_sums_are_day_totals`: the sums that a run carries from bar to bar are the totals of the day so far, however
  few rows are kept, and the average price is their quotient;
- `Pipeline.default_vwap`: every plan of the default registry with the average price computes it like that.

The sum of a bar is made from the sum in the row before, so the bars of the day are not looked at again. The totals come
out by induction over the bars of the day.
-/

namespace TradingStrategy

/-- A third of high, low and close, times the volume. -/
def Bar.turnover (bar : Bar) : Float :=
  (bar.high + bar.low + bar.close) / 3.0 * bar.volume

/-- The date of a bar of a sequence, as a count of days. -/
def dayAt (bars : List Bar) (bar : Nat) : Option Int :=
  bars[bar]?.map fun sample => sample.timestamp.day

/-- Bars in a row of one date, as many as there are up to the last one. -/
structure IsDayRun (bars : List Bar) (first last : Nat) : Prop where
  inOrder : first ≤ last
  inside : last < bars.length
  sameDay : ∀ bar, first ≤ bar → bar ≤ last → dayAt bars bar = dayAt bars last
  longest : ∀ before, before + 1 = first → dayAt bars before ≠ dayAt bars last

/-- The sum of a term over some bars, from zero on and first to last. -/
def dayTotal (term : Bar → Float) (bars : List Bar) (first count : Nat) : Float :=
  ((bars.drop first).take count).foldl (fun total sample => total + term sample) 0.0

variable {bars : List Bar} {first last : Nat}

theorem dayTotal_succ (term : Bar → Float) {count : Nat} {sample : Bar} (stands : bars[first + count]? = some sample) :
    dayTotal term bars first (count + 1) = dayTotal term bars first count + term sample := by
  have next : (bars.drop first)[count]? = some sample := by rw [List.getElem?_drop, stands]
  rw [dayTotal, List.take_add_one, next, Option.toList_some, List.foldl_concat, dayTotal]

/-! ### Sums that are carried on -/

namespace Pipeline

variable {pipeline : Pipeline} {capacity bar : Nat} {view : View} {sample : Bar}

/-- The rows of a run are dated by its bars. -/
theorem timestamp_at (pipeline : Pipeline) (capacity : Nat) (bars : List Bar) (bar : Nat) :
    (pipeline.snapshots (.empty capacity) bars)[bar]?.map Snapshot.timestamp = bars[bar]?.map Bar.timestamp := by
  cases stands : bars[bar]? with
  | none =>
    have outside := List.getElem?_eq_none_iff.mp stands
    rw [List.getElem?_eq_none (by rwa [length_snapshots])]
    rfl
  | some sample =>
    obtain ⟨view, isView, isRow⟩ := view_at pipeline capacity stands
    rw [View.at?_current isView, isRow, Option.map_some, Option.map_some, compute_timestamp]

section

variable
  (isView : View.at? (pipeline.snapshots (.empty capacity) bars) (History.empty capacity).capacity bar = some view)
include isView

theorem dayAt_view : dayAt bars bar = some view.current.timestamp.day := by
  have dated := timestamp_at pipeline capacity bars bar
  rw [View.at?_current isView, Option.map_some] at dated
  rw [dayAt, ← Function.comp_def Calendar.Instant.day Bar.timestamp, ← Option.map_map, ← dated, Option.map_some]

/-- The row before is of the same date if there is a bar before and it is. -/
theorem sameDay_iff :
    Feature.sameDay view = true ↔ ∃ before, before + 1 = bar ∧ dayAt bars before = dayAt bars bar := by
  have now : view.timestamp? 0 = some view.current.timestamp := rfl
  rw [Feature.sameDay, now]
  cases bar with
  | zero =>
    have nothing : view.timestamp? 1 = none := by rw [View.timestamp?, View.at?_first isView, Option.map_none]
    simp [nothing]
  | succ before =>
    obtain ⟨earlier, isEarlier⟩ := View.exists_earlier isView
    have previous : view.timestamp? 1 = some earlier.current.timestamp := by
      rw [View.timestamp?, View.at?_next isView (History.empty_kept capacity), View.at?_current isEarlier,
        Option.map_some]
    simp only [previous, Nat.add_right_cancel_iff, exists_eq_left, dayAt_view isView, dayAt_view isEarlier,
      beq_iff_eq, Option.some.injEq]
    exact eq_comm

/-- The builtin values at a bar are the bar's. -/
theorem get_builtin (fromBar : ∀ feature ∈ pipeline.steps, isBuiltin feature.name = false)
    (stands : bars[bar]? = some sample) {name : String} (builtin : isBuiltin name = true) :
    view.get name 0 = ((Snapshot.ofBar sample).get? name).getD Number.nan := by
  obtain ⟨other, isOther, isRow⟩ := view_at pipeline capacity stands
  obtain rfl := Option.some.inj (isView.symm.trans isOther)
  have value := compute_builtin fromBar sample view.past builtin
  rw [← value, ← isRow]
  rfl

end

section

variable {name : String} {ofView : View → Float} {term : Bar → Float}
  (computes : Computes pipeline.steps (Feature.daySum name ofView))
  (isLocal : (Feature.daySum name ofView).Local 2)
  (ofBar : ∀ {bar : Nat} {view : View} {sample : Bar},
    View.at? (pipeline.snapshots (.empty capacity) bars) (History.empty capacity).capacity bar = some view →
      bars[bar]? = some sample → ofView view = term sample)
include computes isLocal ofBar

/-- The first bar of a day adds its term to zero. -/
theorem daySum_first (stands : bars[bar]? = some sample)
    (otherDay : ∀ before, before + 1 = bar → dayAt bars before ≠ dayAt bars bar) :
    valueAt (pipeline.snapshots (.empty capacity) bars) name bar = some (0.0 + term sample) := by
  obtain ⟨view, isView, _⟩ := view_at pipeline capacity stands
  have notSame : ¬Feature.sameDay view = true := by
    rw [sameDay_iff isView]
    rintro ⟨before, isNext, same⟩
    exact otherDay before isNext same
  rw [← ofBar isView stands]
  exact (value_at computes isLocal isView).trans
    (congrArg (fun carried => some (carried + ofView view)) (if_neg notSame))

/-- Any other bar of the day adds its term to the sum before it, if that is finite. -/
theorem daySum_next {before : Nat} {total : Float} (stands : bars[before + 1]? = some sample)
    (same : dayAt bars before = dayAt bars (before + 1))
    (carried : valueAt (pipeline.snapshots (.empty capacity) bars) name before = some total)
    (finite : total.isFinite = true) :
    valueAt (pipeline.snapshots (.empty capacity) bars) name (before + 1) = some (total + term sample) := by
  obtain ⟨view, isView, _⟩ := view_at pipeline capacity stands
  have isSame := (sameDay_iff isView).mpr ⟨before, rfl, same⟩
  have previous : (View.finite? (view.value? name 1)).getD 0.0 = total := by
    rw [View.at?_valueBefore isView (History.empty_kept capacity), valueBefore, carried, View.finite?,
      Option.filter_some_pos finite, Option.getD_some]
  rw [← ofBar isView stands]
  exact (value_at computes isLocal isView).trans
    (congrArg (fun carried => some (carried + ofView view)) ((if_pos isSame).trans previous))

/-- The sum at a bar of a day is the total of the day up to it, if the total before it is finite. -/
theorem daySum_at (run : IsDayRun bars first last) {count : Nat} (within : first + count ≤ last)
    (finite : (dayTotal term bars first count).isFinite = true) :
    valueAt (pipeline.snapshots (.empty capacity) bars) name (first + count) =
      some (dayTotal term bars first (count + 1)) := by
  have stands (count : Nat) (within : first + count ≤ last) : bars[first + count]? = some _ :=
    List.getElem?_eq_getElem (Nat.lt_of_le_of_lt within run.inside)
  have day (count : Nat) (within : first + count ≤ last) : dayAt bars (first + count) = dayAt bars last :=
    run.sameDay (first + count) (Nat.le_add_right first count) within
  rw [dayTotal_succ term (stands count within)]
  induction count with
  | zero =>
    apply daySum_first computes isLocal ofBar (stands 0 within)
    intro before isFirst same
    exact run.longest before isFirst (same.trans (day 0 within))
  | succ before inductionHypothesis =>
    have withinBefore : first + before ≤ last := Nat.le_of_succ_le within
    have total := dayTotal_succ term (stands before withinBefore)
    have finiteBefore : (dayTotal term bars first before).isFinite = true := by
      rw [total] at finite
      exact Number.finite_of_add finite
    apply daySum_next computes isLocal ofBar (stands (before + 1) within)
    · exact (day before withinBefore).trans (day (before + 1) within).symm
    · rw [total]
      exact inductionHypothesis withinBefore finiteBefore
    · exact finite

end

end Pipeline

/-- Where every feature of the average price is computed behind what it reads, and no feature takes the name of a value
of the bar, the two sums at the last bar of a run of one date are the totals of that date so far, if those of the bars
before it are finite, whatever the history keeps. The average price is their quotient, and no number if the total volume
is zero or not finite. -/
theorem session_sums_are_day_totals {pipeline : Pipeline}
    (computes : ∀ feature ∈ Feature.vwap, Pipeline.Computes pipeline.steps feature)
    (fromBar : ∀ feature ∈ pipeline.steps, isBuiltin feature.name = false) (capacity : Nat) {bars : List Bar}
    {first last : Nat} (run : IsDayRun bars first last)
    (finite : ∀ term ∈ [Bar.turnover, Bar.volume], (dayTotal term bars first (last - first)).isFinite = true) :
    let rows := pipeline.snapshots (.empty capacity) bars
    let turnover := dayTotal Bar.turnover bars first (last + 1 - first)
    let volume := dayTotal Bar.volume bars first (last + 1 - first)
    valueAt rows "vwap_pv" last = some turnover ∧ valueAt rows "vwap_volume" last = some volume ∧
      valueAt rows "vwap" last =
        some (if volume == 0.0 || !volume.isFinite then Number.nan else turnover / volume) := by
  intro rows turnover volume
  have areLocal := Feature.vwap_local (by decide : 1 < 2)
  simp only [Feature.vwap, List.forall_mem_cons] at computes areLocal
  obtain ⟨turnoverComputes, volumeComputes, ratioComputes, _⟩ := computes
  obtain ⟨turnoverLocal, volumeLocal, ratioLocal, _⟩ := areLocal
  have isLast : first + (last - first) = last := Nat.add_sub_cancel' run.inOrder
  have counted : last - first + 1 = last + 1 - first := (Nat.succ_sub run.inOrder).symm
  have builtin {bar : Nat} {view : View} {sample : Bar}
      (isView : View.at? rows (History.empty capacity).capacity bar = some view) (stands : bars[bar]? = some sample) :
      view.get "high" 0 = sample.high ∧ view.get "low" 0 = sample.low ∧ view.get "close" 0 = sample.close ∧
        view.get "volume" 0 = sample.volume :=
    ⟨Pipeline.get_builtin isView fromBar stands rfl, Pipeline.get_builtin isView fromBar stands rfl,
      Pipeline.get_builtin isView fromBar stands rfl, Pipeline.get_builtin isView fromBar stands rfl⟩
  have turnoverAt : valueAt rows "vwap_pv" last = some turnover := by
    have atLast := Pipeline.daySum_at turnoverComputes turnoverLocal
      (fun isView stands => by
        obtain ⟨high, low, close, volume⟩ := builtin isView stands
        rw [high, low, close, volume]
        rfl)
      run (Nat.le_of_eq isLast) (finite Bar.turnover (by simp))
    rwa [isLast, counted] at atLast
  have volumeAt : valueAt rows "vwap_volume" last = some volume := by
    have atLast := Pipeline.daySum_at volumeComputes volumeLocal
      (fun isView stands => (builtin isView stands).2.2.2) run (Nat.le_of_eq isLast) (finite Bar.volume (by simp))
    rwa [isLast, counted] at atLast
  refine ⟨turnoverAt, volumeAt, ?_⟩
  obtain ⟨view, isView, _⟩ := Pipeline.view_at pipeline capacity (List.getElem?_eq_getElem run.inside)
  have ofView {name : String} {total : Float} (isTotal : valueAt rows name last = some total) :
      view.get name 0 = total := by
    rw [View.get, View.at?_value? isView, isTotal, Option.getD_some]
  have quotient := Pipeline.value_at ratioComputes ratioLocal isView
  simp only [Feature.ratio, ofView turnoverAt, ofView volumeAt] at quotient
  exact quotient

/-! ### A day longer than the history -/

/-- A plan of the default registry with the average price computes it and its two sums. -/
theorem Pipeline.default_vwap {requested : List String} {plan : List FeatureDescriptor}
    (resolved : Registry.default.resolvePlan requested = .ok plan) (inPlan : "vwap" ∈ Registry.namesOf plan) :
    ∃ steps, ofPlan plan .default = .ok ⟨steps⟩ ∧ (∀ feature ∈ Feature.vwap, Computes steps feature) ∧
      ∀ feature ∈ steps, isBuiltin feature.name = false := by
  obtain ⟨steps, bound, ready, planned⟩ := default_planned resolved
  refine ⟨steps, bound, ?_, fun feature member => ready.arranged.computed member⟩
  have listed : ∀ feature ∈ Feature.vwap, feature ∈ defaultFeatures := by simp +contextual [defaultFeatures]
  simp only [Feature.vwap, List.forall_mem_cons] at listed ⊢
  obtain ⟨turnoverListed, volumeListed, ratioListed, _⟩ := listed
  have price := planned _ ratioListed inPlan
  have turnover := ready.mem_declared price turnoverListed List.mem_cons_self
  have volume := ready.mem_declared price volumeListed (List.mem_cons_of_mem _ List.mem_cons_self)
  exact ⟨ready.arranged.computes turnover, ready.arranged.computes volume, ready.arranged.computes price,
    List.forall_mem_nil _⟩

/-- Bars of these highs, lows, closes and volumes, eight hours apart. -/
def barsOfTrades (trades : List (Float × Float × Float × Float)) : List Bar :=
  trades.zipIdx.map fun ((high, low, close, volume), turn) =>
    ⟨"ACME", ⟨28800 * turn, 0⟩, low, high, low, close, volume⟩

/-- The sums of the second day hold all three of its bars and nothing of the first one, although one row is kept
only. -/
theorem second_day_outlives_history :
    let bars := barsOfTrades [(9.0, 5.0, 7.0, 1.0), (9.0, 3.0, 6.0, 2.0), (8.0, 3.0, 4.0, 3.0), (4.0, 0.5, 1.5, 1.0),
      (6.0, 2.0, 4.0, 2.0), (9.0, 2.0, 4.0, 2.0)]
    ∃ plan pipeline, Registry.default.resolvePlan ["vwap"] = .ok plan ∧ Pipeline.ofPlan plan .default = .ok pipeline ∧
      (∀ feature ∈ Feature.vwap, Pipeline.Computes pipeline.steps feature) ∧
      (∀ feature ∈ pipeline.steps, isBuiltin feature.name = false) ∧ IsDayRun bars 3 5 ∧
      (∀ term ∈ [Bar.turnover, Bar.volume], (dayTotal term bars 3 2).isFinite = true) ∧
      let rows := pipeline.snapshots (.empty 1) bars
      valueAt rows "vwap_pv" 5 = some 20.0 ∧ valueAt rows "vwap_volume" 5 = some 5.0 ∧
        valueAt rows "vwap" 5 = some 4.0 := by
  intro bars
  have listed : ∀ name ∈ ["vwap"], name ∈ Pipeline.defaultOrder := by decide
  obtain ⟨plan, resolved⟩ := Pipeline.default_plans fun name asked => Pipeline.default_contains.mpr (listed name asked)
  have inPlan : "vwap" ∈ Registry.namesOf plan := (Registry.resolvePlan_grows resolved).covered "vwap" (by simp)
  obtain ⟨steps, bound, computes, fromBar⟩ := Pipeline.default_vwap resolved inPlan
  have run : IsDayRun bars 3 5 := by
    refine ⟨by decide, by decide, ?_, ?_⟩
    · intro bar atLeast atMost
      obtain rfl | rfl | rfl : bar = 3 ∨ bar = 4 ∨ bar = 5 := by omega
      all_goals decide
    · intro before isFirst
      obtain rfl : before = 2 := Nat.succ.inj isFirst
      decide
  have finite : ∀ term ∈ [Bar.turnover, Bar.volume], (dayTotal term bars 3 2).isFinite = true := by
    simp only [List.forall_mem_cons]
    exact ⟨by decide +kernel, by decide +kernel, List.forall_mem_nil _⟩
  have computesThere : ∀ feature ∈ Feature.vwap, Pipeline.Computes (Pipeline.mk steps).steps feature := computes
  obtain ⟨turnover, volume, price⟩ := session_sums_are_day_totals computesThere fromBar 1 run finite
  refine ⟨plan, ⟨steps⟩, resolved, bound, computes, fromBar, run, finite, turnover.trans ?_, volume.trans ?_,
    price.trans ?_⟩ <;> decide +kernel

end TradingStrategy

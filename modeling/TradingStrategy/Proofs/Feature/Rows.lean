import Mathlib.Data.List.Induction
import TradingStrategy.Proofs.Feature.Independence

/-!
The rows of a run over bars.

Owns:
- `History.push_newest` and `Pipeline.snapshots_snoc`: a bounded history as the newest of all snapshots so far;
- `View.at?`: what the features see at a bar, read off the rows of a run and the number of rows that are kept;
- its depth, its windows and the row before, as facts about the rows;
- `Pipeline.value_at`: at every bar a feature has the value that it computes from what it sees there.

A row is the finished snapshot of a bar, and the rows of a run stand in the order of its bars. Evictions enter only
through the number of rows that are kept.
-/

namespace TradingStrategy

/-- The value of a name in the row of a bar. -/
def valueAt (rows : List Snapshot) (name : String) (bar : Nat) : Option Float :=
  rows[bar]?.bind fun row => row.get? name

/-- The value of a name in the row before that of a bar. -/
def valueBefore (rows : List Snapshot) (name : String) : Nat → Option Float
  | 0 => none
  | before + 1 => valueAt rows name before

/-- The rows of a bar and of those before it, newest first, as many as asked for. -/
def newestRows (rows : List Snapshot) (bar count : Nat) : List Snapshot :=
  (rows.take (bar + 1)).reverse.take count

/-! ### Views -/

namespace View

/-- What the features see at a bar in the end: its row, and as many of those before it as are kept. -/
def at? (rows : List Snapshot) (kept bar : Nat) : Option View :=
  rows[bar]?.map fun row => ⟨row, (rows.take bar).reverse.take kept⟩

variable {rows : List Snapshot} {kept bar count : Nat} {view : View} {name : String}

theorem at?_append (more : List Snapshot) (inside : bar < rows.length) :
    at? (rows ++ more) kept bar = at? rows kept bar := by
  rw [at?, at?, List.getElem?_append_left inside, List.take_append_of_le_length (Nat.le_of_lt inside)]

theorem at?_eq_some (isView : at? rows kept bar = some view) :
    ∃ row, rows[bar]? = some row ∧ view = ⟨row, (rows.take bar).reverse.take kept⟩ := by
  obtain ⟨row, stands, isView⟩ := Option.map_eq_some_iff.mp isView
  exact ⟨row, stands, isView.symm⟩

theorem at?_current (isView : at? rows kept bar = some view) : rows[bar]? = some view.current := by
  obtain ⟨row, stands, rfl⟩ := at?_eq_some isView
  exact stands

theorem exists_earlier (isView : at? rows kept (bar + 1) = some view) :
    ∃ earlier, at? rows kept bar = some earlier := by
  obtain ⟨row, stands, _⟩ := at?_eq_some isView
  have inside := (List.getElem?_eq_some_iff.mp stands).1
  rw [at?, List.getElem?_eq_getElem (Nat.lt_of_succ_lt inside)]
  exact ⟨_, rfl⟩

theorem at?_depth (isView : at? rows kept bar = some view) : view.depth = 1 + min bar kept := by
  obtain ⟨row, stands, rfl⟩ := at?_eq_some isView
  have inside := (List.getElem?_eq_some_iff.mp stands).1
  rw [depth, List.length_take, List.length_reverse, List.length_take]
  omega

theorem newestRows_succ {row : Snapshot} (stands : rows[bar]? = some row) (count : Nat) :
    newestRows rows bar (count + 1) = row :: (rows.take bar).reverse.take count := by
  rw [newestRows, @List.take_add_one _ rows, stands, Option.toList_some, List.reverse_append, List.reverse_singleton,
    List.singleton_append, List.take_succ_cons]

theorem at?_visible (isView : at? rows kept bar = some view) (near : count ≤ kept + 1) :
    view.visible count = newestRows rows bar count := by
  obtain ⟨row, stands, rfl⟩ := at?_eq_some isView
  rw [visible, ← newestRows_succ stands kept, newestRows, List.take_take, Nat.min_eq_left near, newestRows]

/-- There is nothing before the first bar. -/
theorem at?_first (isView : at? rows kept 0 = some view) : view.snapshot? 1 = none := by
  obtain ⟨row, _, rfl⟩ := at?_eq_some isView
  rw [snapshot?, List.take_zero, List.reverse_nil, List.take_nil, List.getElem?_nil]

/-- The row before is seen, as at least one is kept. -/
theorem at?_next (isView : at? rows kept (bar + 1) = some view) (some : 0 < kept) :
    view.snapshot? 1 = rows[bar]? := by
  obtain ⟨row, stands, rfl⟩ := at?_eq_some isView
  have inside := (List.getElem?_eq_some_iff.mp stands).1
  rw [snapshot?, List.getElem?_take_of_lt some, List.getElem?_reverse (by simp; omega), List.length_take,
    List.getElem?_take_of_lt (by omega), Nat.min_eq_left (Nat.le_of_lt inside)]
  rfl

theorem at?_valueBefore (isView : at? rows kept bar = some view) (some : 0 < kept) :
    view.value? name 1 = valueBefore rows name bar := by
  cases bar with
  | zero =>
    rw [value?, at?_first isView]
    rfl
  | succ before =>
    rw [value?, at?_next isView some]
    rfl

theorem at?_value? (isView : at? rows kept bar = some view) : view.value? name 0 = valueAt rows name bar := by
  obtain ⟨row, stands, rfl⟩ := at?_eq_some isView
  rw [valueAt, stands]
  rfl

end View

/-! ### Finite values -/

theorem View.get_not_finite {view : View} {name : String} {offset : Nat}
    (missing : View.finite? (view.value? name offset) = none) : (view.get name offset).isFinite = false := by
  rw [View.get]
  cases isThere : view.value? name offset with
  | none => decide
  | some value =>
    rw [isThere] at missing
    simpa [View.finite?] using missing

theorem View.finite?_of_get {view : View} {name : String} {offset : Nat}
    (finite : (view.get name offset).isFinite = true) : View.finite? (view.value? name offset) ≠ none := by
  intro missing
  rw [View.get_not_finite missing] at finite
  contradiction

/-! ### Windows -/

theorem mapM_finite?_eq_some {name : String} {snapshots : List Snapshot} {values : List Float} :
    (snapshots.mapM fun snapshot => View.finite? (snapshot.get? name)) = some values ↔
      column name snapshots = values.map some ∧ ∀ value ∈ values, value.isFinite = true := by
  induction snapshots generalizing values with
  | nil => cases values <;> simp [column]
  | cons first rest inductionHypothesis =>
    rw [List.mapM_cons, Option.bind_eq_bind, Option.bind_eq_some_iff]
    constructor
    · rintro ⟨value, isValue, others⟩
      obtain ⟨later, areLater, same⟩ := Option.bind_eq_some_iff.mp others
      obtain rfl := Option.some.inj same
      obtain ⟨isThere, finite⟩ := Option.filter_eq_some_iff.mp isValue
      obtain ⟨areThere, allFinite⟩ := inductionHypothesis.mp areLater
      refine ⟨?_, List.forall_mem_cons.mpr ⟨finite, allFinite⟩⟩
      rw [column, List.map_cons, isThere, List.map_cons, ← areThere]
      rfl
    · rintro ⟨areThere, allFinite⟩
      cases values with
      | nil => contradiction
      | cons value later =>
        obtain ⟨isThere, areLater⟩ := List.cons.inj areThere
        obtain ⟨finite, laterFinite⟩ := List.forall_mem_cons.mp allFinite
        refine ⟨value, Option.filter_eq_some_iff.mpr ⟨isThere, finite⟩, ?_⟩
        rw [inductionHypothesis.mpr ⟨areLater, laterFinite⟩]
        rfl

theorem mapM_finite?_eq_none {name : String} {snapshots : List Snapshot} :
    (snapshots.mapM fun snapshot => View.finite? (snapshot.get? name)) = none ↔
      ∃ snapshot ∈ snapshots, View.finite? (snapshot.get? name) = none := by
  induction snapshots with
  | nil => simp
  | cons first rest inductionHypothesis =>
    simp only [List.mapM_cons, Option.bind_eq_bind, List.mem_cons, exists_eq_or_imp, ← inductionHypothesis]
    cases View.finite? (first.get? name) with
    | none => simp
    | some value => cases rest.mapM fun snapshot => View.finite? (snapshot.get? name) <;> simp

namespace View

variable {rows : List Snapshot} {kept bar count : Nat} {view : View} {name : String}

theorem length_window? {values : List Float} (isWindow : view.window? name count = some values) :
    values.length = count := by
  rw [window?] at isWindow
  split at isWindow
  · contradiction
  · next within =>
    rw [not_or, depth, Nat.not_lt] at within
    have areValues := congrArg List.length (mapM_finite?_eq_some.mp isWindow).1
    rw [column, List.length_map, List.length_map, List.length_take, List.length_cons] at areValues
    omega

/-- A window is there if the view is deep enough, and holds the values of the newest rows if all of them are finite. -/
theorem at?_window?_eq_some (isView : at? rows kept bar = some view) (positive : 0 < count) {values : List Float} :
    view.window? name count = some values ↔ count ≤ 1 + min bar kept ∧
      column name (newestRows rows bar count) = values.map some ∧ ∀ value ∈ values, value.isFinite = true := by
  rw [window?, at?_depth isView]
  by_cases deep : count ≤ 1 + min bar kept
  · have visible : (view.current :: view.past).take count = newestRows rows bar count :=
      at?_visible isView (by omega)
    rw [if_neg (by omega), visible, mapM_finite?_eq_some]
    exact (and_iff_right deep).symm
  · rw [if_pos (by omega)]
    simp [deep]

theorem at?_window?_eq_none (isView : at? rows kept bar = some view) (positive : 0 < count) :
    view.window? name count = none ↔
      1 + min bar kept < count ∨ ∃ row ∈ newestRows rows bar count, finite? (row.get? name) = none := by
  rw [window?, at?_depth isView]
  by_cases deep : count ≤ 1 + min bar kept
  · have visible : (view.current :: view.past).take count = newestRows rows bar count :=
      at?_visible isView (by omega)
    rw [if_neg (by omega), visible, mapM_finite?_eq_none]
    exact (or_iff_right (by omega)).symm
  · rw [if_pos (by omega)]
    exact iff_of_true rfl (.inl (by omega))

end View

/-! ### Rows of a run -/

/-- A history that holds the newest of some snapshots holds the newest of them and one more. -/
theorem History.push_newest {history : History} {all : List Snapshot}
    (newest : history.snapshots = all.take history.capacity) (snapshot : Snapshot) :
    (history.push snapshot).snapshots = (snapshot :: all).take history.capacity := by
  rw [push, newest]
  cases history.capacity with
  | zero => rfl
  | succ before => rw [List.take_succ_cons, List.take_succ_cons, List.take_take, Nat.min_eq_left (Nat.le_succ before)]

theorem History.empty_kept (capacity : Nat) : 0 < (History.empty capacity).capacity :=
  Nat.lt_of_lt_of_le Nat.zero_lt_one (Nat.le_max_left 1 _)

namespace Pipeline

variable {pipeline : Pipeline}

/-- The snapshot of one more bar is computed over the newest snapshots so far. -/
theorem snapshots_snoc {history : History} {all : List Snapshot}
    (newest : history.snapshots = all.take history.capacity) (bars : List Bar) (bar : Bar) :
    pipeline.snapshots history (bars ++ [bar]) = pipeline.snapshots history bars ++
      [pipeline.compute bar (((pipeline.snapshots history bars).reverse ++ all).take history.capacity)] := by
  induction bars generalizing history all with
  | nil => simp [snapshots, newest]
  | cons first rest inductionHypothesis =>
    have pushed := inductionHypothesis (History.push_newest newest (pipeline.compute first history.snapshots))
    rw [List.cons_append, snapshots, pushed, snapshots]
    simp [History.push]

theorem mem_snapshots {history : History} {bars : List Bar} {snapshot : Snapshot}
    (member : snapshot ∈ pipeline.snapshots history bars) : ∃ bar past, snapshot = pipeline.compute bar past := by
  induction bars generalizing history with
  | nil => contradiction
  | cons first rest inductionHypothesis =>
    rcases List.mem_cons.mp member with rfl | later
    · exact ⟨first, history.snapshots, rfl⟩
    · exact inductionHypothesis later

theorem length_snapshots (pipeline : Pipeline) (history : History) (bars : List Bar) :
    (pipeline.snapshots history bars).length = bars.length := by
  induction bars generalizing history with
  | nil => rfl
  | cons first rest inductionHypothesis => exact congrArg (· + 1) (inductionHypothesis _)

/-- At every bar of a run there is a view, and its row is computed from the bar and the rows that are kept. -/
theorem view_at (pipeline : Pipeline) (capacity : Nat) {bars : List Bar} {bar : Nat} {sample : Bar}
    (stands : bars[bar]? = some sample) :
    ∃ view, View.at? (pipeline.snapshots (.empty capacity) bars) (History.empty capacity).capacity bar = some view ∧
      view.current = pipeline.compute sample view.past := by
  induction bars using List.reverseRecOn with
  | nil => contradiction
  | append_singleton bars last inductionHypothesis =>
    have empty : (History.empty capacity).snapshots =
        ([] : List Snapshot).take (History.empty capacity).capacity := List.take_nil.symm
    rw [snapshots_snoc empty, List.append_nil]
    by_cases inside : bar < bars.length
    · rw [List.getElem?_append_left inside] at stands
      obtain ⟨view, isView, isRow⟩ := inductionHypothesis stands
      exact ⟨view, (View.at?_append _ (by rwa [length_snapshots])).trans isView, isRow⟩
    · have isLast : bar = bars.length := by
        have within := (List.getElem?_eq_some_iff.mp stands).1
        rw [List.length_append, List.length_singleton] at within
        omega
      rw [isLast, List.getElem?_concat_length] at stands
      obtain rfl := Option.some.inj stands
      rw [isLast, ← length_snapshots pipeline (.empty capacity) bars, View.at?,
        List.getElem?_concat_length, List.take_left]
      exact ⟨_, rfl, rfl⟩

/-- There is a view only at the bars of a run. -/
theorem lt_length_of_view {history : History} {kept bar : Nat} {bars : List Bar} {view : View}
    (isView : View.at? (pipeline.snapshots history bars) kept bar = some view) : bar < bars.length := by
  rw [← length_snapshots pipeline history bars]
  exact (List.getElem?_eq_some_iff.mp (View.at?_current isView)).1

/-- At every bar a feature that is computed behind what it reads has the value that it computes from the view. -/
theorem value_at {feature : Feature} {reach : Nat} (computes : Computes pipeline.steps feature)
    (isLocal : feature.Local reach) {capacity bar : Nat} {bars : List Bar} {view : View}
    (isView : View.at? (pipeline.snapshots (.empty capacity) bars) (History.empty capacity).capacity bar = some view) :
    valueAt (pipeline.snapshots (.empty capacity) bars) feature.name bar = some (feature.compute view) := by
  have inside := lt_length_of_view isView
  obtain ⟨other, isOther, isRow⟩ := view_at pipeline capacity (List.getElem?_eq_getElem inside)
  obtain rfl := Option.some.inj (isView.symm.trans isOther)
  have value := computes.get?_name isLocal bars[bar] view.past
  rw [← View.at?_value? isView]
  rw [← isRow] at value
  exact value

end Pipeline

end TradingStrategy

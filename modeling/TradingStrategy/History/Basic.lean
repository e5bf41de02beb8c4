import TradingStrategy.History.Snapshot

/-!
The rolling history of snapshots and what a feature sees of it.

Owns:
- the bounded history, newest snapshot first, in which a new snapshot displaces the oldest one;
- the view of a feature on the snapshot that is being built and on the snapshots before it.

A view does not know a capacity: it is a snapshot in front of a list. So the same feature can be computed over the
bounded history and over one that never forgets.
-/

namespace TradingStrategy

/-- The largest number of snapshots that a history keeps. -/
def maxHistory : Nat := 100

/-- The newest snapshots, newest first, and how many of them are kept. -/
structure History where
  capacity : Nat
  snapshots : List Snapshot
deriving Repr, DecidableEq

namespace History

/-- An empty history; its capacity is moved into the range from 1 to 100. -/
def empty (capacity : Nat) : History :=
  ⟨max 1 (min capacity maxHistory), []⟩

/-- Adds the newest snapshot and keeps as many as the capacity allows. -/
def push (history : History) (snapshot : Snapshot) : History :=
  { history with snapshots := (snapshot :: history.snapshots).take history.capacity }

/-- The snapshot some bars back; the newest is at 0. -/
def get? (history : History) (offset : Nat) : Option Snapshot :=
  history.snapshots[offset]?

/-- The newest snapshot. -/
def latest? (history : History) : Option Snapshot :=
  history.snapshots.head?

/-- The value of a feature some bars back. -/
def value? (history : History) (name : String) (offset : Nat) : Option Float :=
  (history.get? offset).bind fun snapshot => snapshot.get? name

/-- The number of snapshots. -/
def size (history : History) : Nat :=
  history.snapshots.length

end History

/-- What a feature sees: the snapshot that is being built and those before it, newest first. -/
structure View where
  current : Snapshot
  past : List Snapshot
deriving Repr, DecidableEq

namespace View

/-- The snapshot some bars back; the one that is being built is at 0. -/
def snapshot? (view : View) : Nat → Option Snapshot
  | 0 => some view.current
  | offset + 1 => view.past[offset]?

/-- The value of a feature some bars back. -/
def value? (view : View) (name : String) (offset : Nat) : Option Float :=
  (view.snapshot? offset).bind fun snapshot => snapshot.get? name

/-- The value of a feature some bars back; where it is missing, no number. -/
def get (view : View) (name : String) (offset : Nat) : Float :=
  (view.value? name offset).getD Number.nan

/-- The time of a snapshot some bars back. -/
def timestamp? (view : View) (offset : Nat) : Option Calendar.Instant :=
  (view.snapshot? offset).map Snapshot.timestamp

/-- The number of snapshots that are visible. -/
def depth (view : View) : Nat :=
  view.past.length + 1

/-- A value that is there and finite. -/
def finite? (value : Option Float) : Option Float :=
  value.filter Float.isFinite

/-- The newest `count` values of a feature, newest first, if there are so many and all are finite. -/
def window? (view : View) (name : String) (count : Nat) : Option (List Float) :=
  if count = 0 ∨ view.depth < count then none
  else ((view.current :: view.past).take count).mapM fun snapshot => finite? (snapshot.get? name)

end View

end TradingStrategy

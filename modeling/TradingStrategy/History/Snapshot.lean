import TradingStrategy.Market.Bar

/-!
Snapshots.

Owns: the values of all features at one bar, and the builtin features that every snapshot takes from its bar.
-/

namespace TradingStrategy

/-- The names of the builtin features, in the order in which they stand in every feature plan. -/
def builtinFeatures : List String :=
  ["open", "high", "low", "close", "volume", "price"]

/-- A name is one of the builtin features. -/
def isBuiltin (name : String) : Bool :=
  builtinFeatures.contains name

/-- The value of a name in a list of named values. -/
def valueOf? (name : String) : List (String × Float) → Option Float
  | [] => none
  | (key, value) :: rest => if key = name then some value else valueOf? name rest

/-- Sets the value of a name, in its place if it has one and behind the others if not. -/
def setValue (name : String) (value : Float) : List (String × Float) → List (String × Float)
  | [] => [(name, value)]
  | (key, old) :: rest => if key = name then (name, value) :: rest else (key, old) :: setValue name value rest

/-- The values of features at one bar. -/
structure Snapshot where
  timestamp : Calendar.Instant
  values : List (String × Float)
deriving Repr, DecidableEq

namespace Snapshot

/-- A snapshot with the builtin features of a bar; the price is the close. -/
def ofBar (bar : Bar) : Snapshot :=
  { timestamp := bar.timestamp
    values := [("open", bar.opening), ("high", bar.high), ("low", bar.low), ("close", bar.close),
      ("volume", bar.volume), ("price", bar.close)] }

/-- The value of a feature, if the snapshot has it. -/
def get? (snapshot : Snapshot) (name : String) : Option Float :=
  valueOf? name snapshot.values

/-- Sets the value of a feature. -/
def insert (snapshot : Snapshot) (name : String) (value : Float) : Snapshot :=
  { snapshot with values := setValue name value snapshot.values }

end Snapshot

theorem valueOf?_setValue_same (name : String) (value : Float) (values : List (String × Float)) :
    valueOf? name (setValue name value values) = some value := by
  induction values with
  | nil => simp [setValue, valueOf?]
  | cons head rest inductionHypothesis =>
    obtain ⟨key, old⟩ := head
    by_cases same : key = name <;> simp [setValue, valueOf?, same, inductionHypothesis]

theorem valueOf?_setValue_other {name other : String} (value : Float) (values : List (String × Float))
    (different : other ≠ name) : valueOf? other (setValue name value values) = valueOf? other values := by
  induction values with
  | nil => simp [setValue, valueOf?, different.symm]
  | cons head rest inductionHypothesis =>
    obtain ⟨key, old⟩ := head
    by_cases same : key = name
    · subst same
      simp [setValue, valueOf?, different.symm]
    · simp [setValue, valueOf?, same, inductionHypothesis]

end TradingStrategy

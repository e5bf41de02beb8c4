import TradingStrategy.Json.Value

/-!
Places in JSON values.

Owns: paths of keys and positions, their written form, and the value at a path.
-/

namespace TradingStrategy.Json

/-- One step into a value. -/
inductive Step where
  | key (name : String)
  | position (index : Nat)
deriving Repr, DecidableEq

/-- The steps from the root of a value to a place in it. -/
abbrev Path : Type :=
  List Step

/-- The written form of the steps behind another step. -/
def Step.suffix : Step → String
  | key name => "." ++ name
  | position index => "[" ++ toString index ++ "]"

/-- The written form of a path; the root is a dollar sign. -/
def pathText : Path → String
  | [] => "$"
  | .key name :: rest => name ++ String.join (rest.map Step.suffix)
  | steps => String.join (steps.map Step.suffix)

/-- The value one step further. -/
def step? (value : Json) : Step → Option Json
  | .key name => value.field? name
  | .position index => match value with
      | array items => items[index]?
      | _ => none

def at? (value : Json) : Path → Option Json
  | [] => some value
  | step :: rest => (value.step? step).bind fun inner => at? inner rest

end TradingStrategy.Json

/-!
The functions that expressions may call.

Owns: numbers of arguments, and the table of functions that the check of scopes goes by. The evaluator has a table of its
own.
-/

namespace TradingStrategy

/-- How many arguments a function takes. -/
inductive Arity where
  | exactly (count : Nat)
  | between (low high : Nat)
  | atLeast (count : Nat)
deriving Repr, DecidableEq

namespace Arity

/-- A number of arguments is accepted. -/
def accepts : Arity → Nat → Bool
  | exactly count, n => n == count
  | between low high, n => low ≤ n && n ≤ high
  | atLeast count, n => count ≤ n

/-- The range of accepted numbers. -/
def range : Arity → String
  | exactly count => toString count
  | between low high => toString low ++ "-" ++ toString high
  | atLeast count => "at least " ++ toString count

end Arity

/-- The functions that may be called, in the order of messages. -/
def allowedFunctions : List (String × Arity) :=
  [("in_range", .exactly 3), ("clamp", .exactly 3), ("abs", .exactly 1), ("min", .atLeast 1), ("max", .atLeast 1),
    ("round", .between 1 2)]

/-- A function with its number of arguments, as messages list it. -/
def functionSignature : String × Arity → String
  | (name, .atLeast _) => name ++ "/*"
  | (name, arity) => name ++ "/" ++ arity.range

end TradingStrategy

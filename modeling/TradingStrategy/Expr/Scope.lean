import TradingStrategy.Expr.Basic
import TradingStrategy.Expr.Function
import TradingStrategy.History.Snapshot

/-!
Scopes of expressions.

Owns: which runtime variables each place of a strategy sees, and the check that an expression mentions only what is in
scope and calls only known functions with an accepted number of arguments. The types of values are the evaluator's
business.
-/

namespace TradingStrategy

/-- The runtime variables: the frozen prices of an armed plan. -/
def runtimeVariables : List String :=
  ["entry", "stop", "eL", "eH", "t1"]

/-- The places in which expressions stand. -/
inductive Scope where
  | arm | trigger | invalidate | entryZone | stopPrice | target
deriving Repr, DecidableEq

namespace Scope

def all : List Scope :=
  [arm, trigger, invalidate, entryZone, stopPrice, target]

/-- The runtime variables that are in scope. The prices of a plan are fixed one after another: the zone, the stop, the
targets. -/
def visible : Scope → List String
  | arm | entryZone => []
  | stopPrice => ["entry", "eL", "eH"]
  | target => ["entry", "eL", "eH", "stop"]
  | trigger | invalidate => runtimeVariables

/-- The name of a scope in messages. -/
def name : Scope → String
  | arm => "arm"
  | trigger => "trigger"
  | invalidate => "invalidate"
  | entryZone => "entryZone"
  | stopPrice => "stopPrice"
  | target => "target price"

end Scope

/-- Why an expression does not fit its scope. -/
inductive ScopeError where
  | undeclared (scope : Scope) (names : List String)
  | unknownFunction (name : String)
  | arity (name : String) (expected : Arity) (got : Nat)
deriving Repr, DecidableEq

def ScopeError.message : ScopeError → String
  | undeclared scope names =>
      "undeclared identifiers in " ++ scope.name ++ ": " ++ String.intercalate ", " names
  | unknownFunction name =>
      "unknown function '" ++ name ++ "'; allowed: " ++ String.intercalate ", " (allowedFunctions.map functionSignature)
  | arity name expected got =>
      "function '" ++ name ++ "' expects " ++ expected.range ++ " arguments, got " ++ toString got

/-- A name is in scope: a declared feature, a builtin feature, or a runtime variable of the scope. -/
def inScope (declared : List String) (scope : Scope) (name : String) : Bool :=
  declared.contains name || isBuiltin name || scope.visible.contains name

/-- What is wrong with a call, if anything is. -/
def callError? (call : String × Nat) : Option ScopeError :=
  match allowedFunctions.lookup call.1 with
  | none => some (.unknownFunction call.1)
  | some arity => if arity.accepts call.2 then none else some (.arity call.1 arity call.2)

/-- Checks an expression: all names that are not in scope are reported together, and before any call. -/
def checkScope (declared : List String) (scope : Scope) (e : Expr) : Except ScopeError Unit :=
  match e.identifiers.filter fun name => !inScope declared scope name with
  | [] =>
      match e.calls.findSome? callError? with
      | some error => .error error
      | none => .ok ()
  | undeclared => .error (.undeclared scope undeclared)

end TradingStrategy

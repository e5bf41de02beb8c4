import TradingStrategy.Expr.Printer
import TradingStrategy.History.Basic

/-!
Evaluation of expressions over the history.

Owns:
- the context of an evaluation: the history and the runtime variables of an armed plan;
- the values of operators and functions;
- the causes of a failed evaluation and their wording.

A read beyond the oldest snapshot is no number, like a feature that has not warmed up. A comparison with what is no
number is false; arithmetic passes it on. The boolean operators stop at the first operand that decides.
-/

namespace TradingStrategy

/-- Why an offset cannot be used. -/
inductive OffsetFault where
  /-- Runtime variables have no history. -/
  | ofVariable
  /-- What is indexed is no feature. -/
  | ofExpression (object : Expr)
  | notNumber
  | notInRange (offset : Float)
deriving Repr

/-- Why an expression has no value. -/
inductive EvalError where
  | unknownIdentifier (name : String)
  | typeMismatch (place expected found : String)
  | unknownFunction (name : String)
  | arity (function expected : String) (got : Nat)
  | invalidOffset (access : Expr) (fault : OffsetFault)
  | notBoolean (guard : Expr) (found : Value)
deriving Repr

/-- The range of offsets, as messages give it. -/
def offsetRange : String :=
  "0..=" ++ toString Expr.maxOffset

def OffsetFault.message : OffsetFault → String
  | ofVariable => "runtime variables have no history"
  | ofExpression object => "'" ++ object.text ++ "' is not a feature name"
  | notNumber => "offset must be a number"
  | notInRange offset => "offset " ++ Number.plain offset ++ " is not a whole number in " ++ offsetRange

def EvalError.message : EvalError → String
  | unknownIdentifier name => "identifier '" ++ name ++ "' is not present in the evaluation context"
  | typeMismatch place expected found => "operator '" ++ place ++ "' expects " ++ expected ++ ", found " ++ found
  | unknownFunction name => "unknown function '" ++ name ++ "'"
  | arity function expected got =>
      "function '" ++ function ++ "' expects " ++ expected ++ " arguments, got " ++ toString got
  | invalidOffset access fault => "invalid history access '" ++ access.text ++ "': " ++ fault.message
  | notBoolean guard found =>
      "guard '" ++ guard.text ++ "' evaluated to " ++ found.text ++ ", expected a boolean"

/-- What an expression is evaluated in: the history, and the runtime variables of an armed plan. -/
structure EvalContext where
  history : History
  bindings : List (String × Float)
deriving Repr

namespace EvalContext

/-- A context without runtime variables. -/
def ofHistory (history : History) : EvalContext :=
  ⟨history, []⟩

/-- The value of a name some bars back. A runtime variable has only its present value; every other name must be a
feature of the newest snapshot. -/
def lookup (context : EvalContext) (name : String) (offset : Nat) : Except EvalError Float :=
  match valueOf? name context.bindings with
  | some value =>
      if 0 < offset then .error (.invalidOffset ((Expr.identifier name).barsBack offset) .ofVariable) else .ok value
  | none =>
      match context.history.latest?.bind fun snapshot => snapshot.get? name with
      | none => .error (.unknownIdentifier name)
      | some _ => .ok ((context.history.value? name offset).getD Number.nan)

end EvalContext

namespace Value

/-- The number that an operator or function needs. -/
def asNumber (place : String) : Value → Except EvalError Float
  | number value => .ok value
  | boolean _ => .error (.typeMismatch place "number" "boolean")

/-- The boolean that an operator needs. -/
def asBoolean (place : String) : Value → Except EvalError Bool
  | boolean value => .ok value
  | number _ => .error (.typeMismatch place "boolean" "number")

end Value

/-! ### Operators -/

/-- Numbers closer than this are equal. -/
def equalityTolerance : Float := 1e-9

/-- Two numbers are close enough to count as equal; with what is no number there is no answer. -/
def numbersEqual? (a b : Float) : Option Bool :=
  if a.isNaN || b.isNaN then none else some ((a - b).abs < equalityTolerance)

/-- The value of `==` and `!=`. Both are false where one number is none. -/
def evalEquality (op : BinaryOp) (left right : Value) : Except EvalError Value :=
  let answer : Option Bool → Value
    | none => .boolean false
    | some equal => .boolean (if op = .eq then equal else !equal)
  match left, right with
  | .boolean a, .boolean b => .ok (answer (some (a == b)))
  | .number a, .number b => .ok (answer (numbersEqual? a b))
  | l, r => .error (.typeMismatch op.symbol l.typeName r.typeName)

/-- The quotient; by zero it is no number. -/
def quotient (a b : Float) : Float :=
  if b == 0.0 then Number.nan else a / b

/-- The value of an arithmetic operator or an ordering on two numbers. -/
def evalNumeric (op : BinaryOp) (a b : Float) : Value :=
  match op with
  | .add => .number (a + b)
  | .sub => .number (a - b)
  | .mul => .number (a * b)
  | .div => .number (quotient a b)
  | .rem => .number (Number.remainder a b)
  | .lt => .boolean (a < b)
  | .gt => .boolean (b < a)
  | .le => .boolean (a ≤ b)
  | .ge => .boolean (b ≤ a)
  | .eq | .ne | .and | .or => .boolean false

/-- The value of a unary operator. -/
def evalUnary (op : UnaryOp) (arg : Value) : Except EvalError Value :=
  match op with
  | .neg => (arg.asNumber op.symbol).map fun n => .number (-n)
  | .plus => (arg.asNumber op.symbol).map .number
  | .not => (arg.asBoolean op.symbol).map fun b => .boolean !b

/-! ### Functions -/

/-- The functions that have values. -/
inductive Function where
  | abs | clamp | inRange | min | max | round
deriving Repr, DecidableEq

namespace Function

/-- The function that a call names. -/
def ofName? : String → Option Function
  | "abs" => some abs
  | "clamp" => some clamp
  | "in_range" => some inRange
  | "min" => some min
  | "max" => some max
  | "round" => some round
  | _ => none

/-- The name by which a function is called. -/
def name : Function → String
  | abs => "abs" | clamp => "clamp" | inRange => "in_range" | min => "min" | max => "max" | round => "round"

theorem ofName?_name (function : Function) : ofName? function.name = some function := by
  cases function <;> rfl

/-- The numbers of arguments that a function has a value for, spelled out. -/
def expected : Function → String
  | abs => "1"
  | clamp | inRange => "3"
  | min | max => "at least 1"
  | round => "1 or 2"

end Function

/-- A number rounded at a number of decimal places. -/
def roundAt (x places : Float) : Float :=
  let factor := Number.power 10.0 (Number.toIntClamped Int32.minValue.toInt Int32.maxValue.toInt places)
  Number.roundHalfAway (x * factor) / factor

/-- The least or greatest of numbers, starting from an infinity; with one that is no number there is none. -/
def extreme (pick : Float → Float → Float) (start : Float) (numbers : List Float) : Float :=
  if numbers.any Float.isNaN then Number.nan else numbers.foldl pick start

/-- The value of a function on numbers, if it takes so many. -/
def Function.apply? : Function → List Float → Option Value
  | .abs, [x] => some (.number x.abs)
  | .clamp, [x, low, high] => some (.number (Number.least (Number.greatest x low) high))
  | .inRange, [x, low, high] => some (.boolean (low ≤ x && x ≤ high))
  | .min, first :: rest => some (.number (extreme Number.least Number.infinity (first :: rest)))
  | .max, first :: rest => some (.number (extreme Number.greatest (-Number.infinity) (first :: rest)))
  | .round, [x] => some (.number (Number.roundHalfAway x))
  | .round, [x, places] => some (.number (roundAt x places))
  | _, _ => none

/-- The value of a call: the name is looked up first, then all arguments must be numbers, then their number must
fit. -/
def evalCall (name : String) (args : List Value) : Except EvalError Value :=
  match Function.ofName? name with
  | none => .error (.unknownFunction name)
  | some function =>
      match args.mapM (Value.asNumber name) with
      | .error e => .error e
      | .ok numbers =>
          match function.apply? numbers with
          | some value => .ok value
          | none => .error (.arity name function.expected args.length)

/-! ### Expressions -/

/-- The offset that an index stands for: a whole number in the range of offsets. -/
def offsetOf (access : Expr) : Value → Except EvalError Nat
  | .boolean _ => .error (.invalidOffset access .notNumber)
  | .number n =>
      if Number.isWhole n && 0.0 ≤ n && n ≤ Float.ofNat Expr.maxOffset then .ok (Number.toNatClamped n)
      else .error (.invalidOffset access (.notInRange n))

mutual

/-- The value of an expression. -/
def evaluate (context : EvalContext) : Expr → Except EvalError Value
  | .literal value => .ok value
  | .identifier name => (context.lookup name 0).map .number
  | .lookback (.identifier name) index => do
      let value ← evaluate context index
      let offset ← offsetOf (.lookback (.identifier name) index) value
      (context.lookup name offset).map .number
  | .lookback object index => .error (.invalidOffset (.lookback object index) (.ofExpression object))
  | .unary op arg => do evalUnary op (← evaluate context arg)
  | .binary .and left right => do
      if ← (← evaluate context left).asBoolean BinaryOp.and.symbol then
        (← evaluate context right).asBoolean BinaryOp.and.symbol |>.map .boolean
      else return .boolean false
  | .binary .or left right => do
      if ← (← evaluate context left).asBoolean BinaryOp.or.symbol then return .boolean true
      else (← evaluate context right).asBoolean BinaryOp.or.symbol |>.map .boolean
  | .binary .eq left right => do
      let l ← evaluate context left
      let r ← evaluate context right
      evalEquality .eq l r
  | .binary .ne left right => do
      let l ← evaluate context left
      let r ← evaluate context right
      evalEquality .ne l r
  | .binary op left right => do
      let l ← (← evaluate context left).asNumber op.symbol
      let r ← (← evaluate context right).asNumber op.symbol
      return evalNumeric op l r
  | .call name args => do evalCall name (← evaluateAll context args)

/-- The values of expressions, first to last. -/
def evaluateAll (context : EvalContext) : List Expr → Except EvalError (List Value)
  | [] => .ok []
  | first :: rest => do
      let value ← evaluate context first
      let values ← evaluateAll context rest
      return value :: values

end

/-- The truth of a guard. Anything but a boolean is an error. -/
def evaluateBool (context : EvalContext) (e : Expr) : Except EvalError Bool :=
  match evaluate context e with
  | .ok (.boolean b) => .ok b
  | .ok other => .error (.notBoolean e other)
  | .error error => .error error

/-- The number of a price. Anything but a number is an error. -/
def evaluateNumber (context : EvalContext) (e : Expr) : Except EvalError Float :=
  match evaluate context e with
  | .ok (.number n) => .ok n
  | .ok other => .error (.typeMismatch e.text "number" other.typeName)
  | .error error => .error error

end TradingStrategy

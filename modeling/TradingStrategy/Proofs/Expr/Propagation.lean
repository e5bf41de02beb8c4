import TradingStrategy.Expr.Eval
import TradingStrategy.Proofs.Number.Undefined
import TradingStrategy.Proofs.Outcome

/-!
What becomes of reads that have no number.

Owns:
- `evaluate_call`: a call that has a value, with the numbers of its arguments;
- `Expr.IsArithmetic`: the expressions whose values are numbers;
- `Expr.Spoiled`: a read without a number reaches the value of the expression;
- `Expr.PassesOn`: what a context without a number for some reads makes of an arithmetic expression and of the
  comparisons with it;
- `arithmetic_passes_on`: this holds of every arithmetic expression that has a value;
- what the two functions do that keep a read from the value: `evaluate_clamp` and `roundAt_nan`.

Every operator and function passes on what is no number, but for two of them. A clamp takes its bounds instead, unless
these are no numbers either, and places that are no number count as zero.
-/

namespace TradingStrategy

/-! ### Evaluated calls -/

/-- Arguments whose values are numbers. -/
def EvaluateTo (context : EvalContext) (args : List Expr) (numbers : List Float) : Prop :=
  args.map (evaluate context) = numbers.map fun x => .ok (.number x)

namespace EvaluateTo

variable {context : EvalContext} {args : List Expr} {numbers : List Float}

theorem of_arg (areNumbers : EvaluateTo context args numbers) {arg : Expr} (member : arg ∈ args) :
    ∃ x ∈ numbers, evaluate context arg = .ok (.number x) := by
  have among : evaluate context arg ∈ args.map (evaluate context) := List.mem_map_of_mem member
  rw [areNumbers] at among
  obtain ⟨x, inNumbers, same⟩ := List.mem_map.mp among
  exact ⟨x, inNumbers, same.symm⟩

theorem of_number (areNumbers : EvaluateTo context args numbers) {x : Float} (member : x ∈ numbers) :
    ∃ arg ∈ args, evaluate context arg = .ok (.number x) := by
  have among : .ok (.number x) ∈ numbers.map fun x => (.ok (.number x) : Except EvalError Value) :=
    List.mem_map_of_mem member
  rw [← areNumbers] at among
  exact List.mem_map.mp among

theorem length_eq (areNumbers : EvaluateTo context args numbers) : args.length = numbers.length := by
  simpa using congrArg List.length areNumbers

end EvaluateTo

theorem evaluateAll_values {context : EvalContext} {args : List Expr} {values : List Value}
    (evaluated : evaluateAll context args = .ok values) : args.map (evaluate context) = values.map .ok := by
  induction args generalizing values with
  | nil =>
    rw [← Except.ok.inj evaluated]
    rfl
  | cons first rest inductionHypothesis =>
    obtain ⟨value, isValue, evaluated⟩ := bind_eq_ok evaluated
    obtain ⟨others, areOthers, evaluated⟩ := bind_eq_ok evaluated
    rw [← Except.ok.inj evaluated, List.map_cons, List.map_cons, isValue, inductionHypothesis areOthers]

theorem asNumber_eq_ok {place : String} {value : Value} {x : Float} (read : value.asNumber place = .ok x) :
    value = .number x := by
  cases value with
  | number own => rw [← Except.ok.inj read]
  | boolean => contradiction

theorem mapM_asNumber {place : String} {values : List Value} {numbers : List Float}
    (read : values.mapM (Value.asNumber place) = .ok numbers) : values = numbers.map .number := by
  induction values generalizing numbers with
  | nil =>
    rw [← Except.ok.inj read]
    rfl
  | cons first rest inductionHypothesis =>
    rw [List.mapM_cons] at read
    obtain ⟨x, isNumber, read⟩ := bind_eq_ok read
    obtain ⟨others, areOthers, read⟩ := bind_eq_ok read
    rw [← Except.ok.inj read, List.map_cons, ← inductionHypothesis areOthers, asNumber_eq_ok isNumber]

/-- A call with a value is one of a known function, and its arguments are numbers. -/
theorem evaluate_call {context : EvalContext} {name : String} {args : List Expr} {value : Value}
    (evaluated : evaluate context (.call name args) = .ok value) :
    ∃ function numbers, Function.ofName? name = some function ∧
      EvaluateTo context args numbers ∧ function.apply? numbers = some value := by
  rw [evaluate] at evaluated
  obtain ⟨values, areValues, called⟩ := bind_eq_ok evaluated
  unfold evalCall at called
  split at called
  · contradiction
  · next function known =>
    split at called
    · contradiction
    · next numbers areNumbers =>
      split at called
      · next applied =>
        refine ⟨function, numbers, known, ?_, by rw [applied, ← Except.ok.inj called]⟩
        rw [EvaluateTo, evaluateAll_values areValues, mapM_asNumber areNumbers, List.map_map]
        rfl
      · contradiction

theorem evaluate_known {context : EvalContext} {function : Function} {args : List Expr} {value : Value}
    (evaluated : evaluate context (.call function.name args) = .ok value) :
    ∃ numbers, EvaluateTo context args numbers ∧ function.apply? numbers = some value := by
  obtain ⟨known, numbers, same, areNumbers, applied⟩ := evaluate_call evaluated
  rw [Function.ofName?_name] at same
  obtain rfl := Option.some.inj same
  exact ⟨numbers, areNumbers, applied⟩

/-- The other way round, a function of numbers is called on them. -/
theorem evaluate_call_of_numbers {context : EvalContext} {function : Function} {args : List Expr}
    {numbers : List Float} {value : Value}
    (areNumbers : EvaluateTo context args numbers)
    (applied : function.apply? numbers = some value) : evaluate context (.call function.name args) = .ok value := by
  have evaluatedAll : evaluateAll context args = .ok (numbers.map .number) := by
    clear applied
    induction args generalizing numbers with
    | nil =>
      rw [List.map_eq_nil_iff.mp areNumbers.symm]
      rfl
    | cons first rest inductionHypothesis =>
      match numbers with
      | x :: others =>
        obtain ⟨isNumber, areOthers⟩ := List.cons.inj areNumbers
        rw [evaluateAll, isNumber, inductionHypothesis areOthers]
        rfl
  have read : (numbers.map Value.number).mapM (Value.asNumber function.name) = .ok numbers := by
    clear applied areNumbers evaluatedAll
    induction numbers with
    | nil => rfl
    | cons first rest inductionHypothesis =>
      rw [List.map_cons, List.mapM_cons, inductionHypothesis]
      rfl
  rw [evaluate, evaluatedAll]
  show evalCall function.name (numbers.map Value.number) = .ok value
  simp only [evalCall, Function.ofName?_name, read, applied]

/-! ### Arithmetic -/

namespace BinaryOp

def isArithmetic : BinaryOp → Bool
  | add | sub | mul | div | rem => true
  | lt | gt | le | ge | eq | ne | and | or => false

def isComparison : BinaryOp → Bool
  | lt | gt | le | ge | eq | ne => true
  | add | sub | mul | div | rem | and | or => false

end BinaryOp

namespace Expr

/-- Expressions of numbers: literals, identifiers and reads of the past, and what operators and functions make a number
of. -/
inductive IsArithmetic : Expr → Prop where
  | number (value : Float) : IsArithmetic (number value)
  | identifier (name : String) : IsArithmetic (identifier name)
  | lookback (name : String) (offset : Float) : IsArithmetic (lookback (identifier name) (number offset))
  | unary {op : UnaryOp} (numeric : op ≠ .not) {arg : Expr} (arithmetic : IsArithmetic arg) :
      IsArithmetic (unary op arg)
  | binary {op : BinaryOp} (numeric : op.isArithmetic = true) {left right : Expr} (leftArithmetic : IsArithmetic left)
      (rightArithmetic : IsArithmetic right) : IsArithmetic (binary op left right)
  | call {function : Function} (numeric : function ≠ .inRange) {args : List Expr}
      (arithmetic : ∀ arg ∈ args, IsArithmetic arg) : IsArithmetic (call function.name args)

/-- A read without a number reaches the value of an expression: it is the expression, or it reaches the value of an
operand that is passed on. That is every operand but the places of a rounding, and those of a clamp if it reaches the
value of all three. -/
inductive Spoiled (context : EvalContext) : Expr → Prop where
  | identifier {name : String} (missing : context.lookup name 0 = .ok Number.nan) : Spoiled context (identifier name)
  | lookback {name : String} {offset : Float}
      (missing : context.lookup name (Number.toNatClamped offset) = .ok Number.nan) :
      Spoiled context (lookback (Expr.identifier name) (number offset))
  | unary {op : UnaryOp} {arg : Expr} (spoiled : Spoiled context arg) : Spoiled context (unary op arg)
  | left {op : BinaryOp} (numeric : op.isArithmetic = true) {left : Expr} (spoiled : Spoiled context left)
      (right : Expr) : Spoiled context (binary op left right)
  | right {op : BinaryOp} (numeric : op.isArithmetic = true) (left : Expr) {right : Expr}
      (spoiled : Spoiled context right) : Spoiled context (binary op left right)
  | argument {function : Function} (passes : function = .abs ∨ function = .min ∨ function = .max) {args : List Expr}
      {arg : Expr} (member : arg ∈ args) (spoiled : Spoiled context arg) : Spoiled context (call function.name args)
  | rounded {first : Expr} (spoiled : Spoiled context first) (rest : List Expr) :
      Spoiled context (call Function.round.name (first :: rest))
  | clamped {args : List Expr} (spoiled : ∀ arg ∈ args, Spoiled context arg) :
      Spoiled context (call Function.clamp.name args)

end Expr

/-! ### Values that are no numbers -/

open Number (nan)

@[simp]
theorem quotient_nan_left (x : Float) : quotient nan x = nan := by
  unfold quotient
  split
  · rfl
  · exact Number.nan_div x

@[simp]
theorem quotient_nan_right (x : Float) : quotient x nan = nan := by
  simp [quotient]

theorem roundAt_nan_left (places : Float) : roundAt nan places = nan := by
  simp [roundAt]

/-- Places that are no number count as zero. -/
theorem roundAt_nan (x : Float) : roundAt x nan = roundAt x 0.0 := by
  have whole : Number.toIntClamped Int32.minValue.toInt Int32.maxValue.toInt nan =
      Number.toIntClamped Int32.minValue.toInt Int32.maxValue.toInt 0.0 := by decide
  rw [roundAt, roundAt, whole]

theorem extreme_nan {pick : Float → Float → Float} {start : Float} {numbers : List Float} (member : nan ∈ numbers) :
    extreme pick start numbers = nan := by
  have found : numbers.any Float.isNaN = true := List.any_eq_true.mpr ⟨nan, member, Number.isNaN_nan⟩
  rw [extreme, if_pos found]

theorem evalNumeric_arithmetic {op : BinaryOp} (numeric : op.isArithmetic = true) {x y : Float}
    (undefined : x = nan ∨ y = nan) : evalNumeric op x y = .number nan := by
  cases op with
  | add | sub | mul | div | rem => rcases undefined with rfl | rfl <;> simp [evalNumeric]
  | lt | gt | le | ge | eq | ne | and | or => contradiction

namespace Function

theorem apply?_passes {function : Function} (passes : function = .abs ∨ function = .min ∨ function = .max)
    {numbers : List Float} {value : Value} (applied : function.apply? numbers = some value)
    (member : nan ∈ numbers) : value = .number nan := by
  rcases passes with rfl | rfl | rfl
  · match numbers with
    | [x] =>
      rw [← Option.some.inj applied, ← List.mem_singleton.mp member, Number.abs_nan]
    | [] | _ :: _ :: _ => contradiction
  · match numbers with
    | first :: rest => rw [← Option.some.inj applied, extreme_nan member]
    | [] => contradiction
  · match numbers with
    | first :: rest => rw [← Option.some.inj applied, extreme_nan member]
    | [] => contradiction

theorem apply?_rounded {rest : List Float} {value : Value} (applied : round.apply? (nan :: rest) = some value) :
    value = .number nan := by
  match rest with
  | [] => rw [← Option.some.inj applied, Number.roundHalfAway_nan]
  | [places] => rw [← Option.some.inj applied, roundAt_nan_left]
  | _ :: _ :: _ => contradiction

theorem apply?_clamped {numbers : List Float} {value : Value} (applied : clamp.apply? numbers = some value)
    (none : ∀ x ∈ numbers, x = nan) : value = .number nan := by
  match numbers with
  | [x, low, high] =>
    have spoiled : Number.least (Number.greatest x low) high = nan := by
      rw [Number.least_eq_nan_iff, Number.greatest_eq_nan_iff]
      exact ⟨⟨none x (by simp), none low (by simp)⟩, none high (by simp)⟩
    rw [← Option.some.inj applied, spoiled]
  | [] | [_] | [_, _] | _ :: _ :: _ :: _ :: _ => contradiction

/-- Any function but the test of a range gives a number. -/
theorem apply?_number {function : Function} (numeric : function ≠ .inRange) {numbers : List Float} {value : Value}
    (applied : function.apply? numbers = some value) : ∃ x, value = .number x := by
  unfold Function.apply? at applied
  split at applied
  · exact ⟨_, (Option.some.inj applied).symm⟩
  · exact ⟨_, (Option.some.inj applied).symm⟩
  · contradiction
  · exact ⟨_, (Option.some.inj applied).symm⟩
  · exact ⟨_, (Option.some.inj applied).symm⟩
  · exact ⟨_, (Option.some.inj applied).symm⟩
  · exact ⟨_, (Option.some.inj applied).symm⟩
  · contradiction

theorem round_length {numbers : List Float} {value : Value} (applied : round.apply? numbers = some value) :
    numbers.length = 1 ∨ numbers.length = 2 := by
  match numbers with
  | [_] | [_, _] => simp
  | [] | _ :: _ :: _ :: _ => contradiction

end Function

/-! ### Evaluated operators -/

theorem evaluate_unary {context : EvalContext} {op : UnaryOp} {arg : Expr} {value : Value} (numeric : op ≠ .not)
    (evaluated : evaluate context (.unary op arg) = .ok value) :
    ∃ x, evaluate context arg = .ok (.number x) ∧ (x = nan → value = .number nan) ∧ ∃ y, value = .number y := by
  rw [evaluate] at evaluated
  obtain ⟨operand, isOperand, evaluated⟩ := bind_eq_ok evaluated
  cases operand with
  | boolean => cases op <;> contradiction
  | number x =>
    refine ⟨x, isOperand, ?_, ?_⟩
    · rintro rfl
      cases op with
      | neg =>
        rw [← Except.ok.inj evaluated]
        exact congrArg Value.number Number.neg_nan
      | plus => exact (Except.ok.inj evaluated).symm
      | not => contradiction
    · cases op with
      | neg | plus => exact ⟨_, (Except.ok.inj evaluated).symm⟩
      | not => contradiction

theorem evaluate_numeric (context : EvalContext) {op : BinaryOp} (ordinary : op ∉ [.and, .or, .eq, .ne])
    (left right : Expr) : evaluate context (.binary op left right) = (do
      let l ← (← evaluate context left).asNumber op.symbol
      let r ← (← evaluate context right).asNumber op.symbol
      return evalNumeric op l r) := by
  rw [evaluate]
  all_goals
    rintro rfl
    simp at ordinary

theorem evaluate_arithmetic {context : EvalContext} {op : BinaryOp} {left right : Expr} {value : Value}
    (numeric : op.isArithmetic = true) (evaluated : evaluate context (.binary op left right) = .ok value) :
    ∃ x y, evaluate context left = .ok (.number x) ∧ evaluate context right = .ok (.number y) ∧
      value = evalNumeric op x y := by
  rw [evaluate_numeric context (by cases op <;> first | decide | contradiction)] at evaluated
  obtain ⟨leftValue, isLeft, evaluated⟩ := bind_eq_ok evaluated
  obtain ⟨x, isX, evaluated⟩ := bind_eq_ok evaluated
  obtain ⟨rightValue, isRight, evaluated⟩ := bind_eq_ok evaluated
  obtain ⟨y, isY, evaluated⟩ := bind_eq_ok evaluated
  rw [asNumber_eq_ok isX] at isLeft
  rw [asNumber_eq_ok isY] at isRight
  exact ⟨x, y, isLeft, isRight, (Except.ok.inj evaluated).symm⟩

/-- No comparison with what is no number holds. -/
theorem evaluate_comparison {context : EvalContext} {op : BinaryOp} {left right : Expr} {x y : Float}
    (compares : op.isComparison = true) (isLeft : evaluate context left = .ok (.number x))
    (isRight : evaluate context right = .ok (.number y)) (undefined : x = nan ∨ y = nan) :
    evaluate context (.binary op left right) = .ok (.boolean false) := by
  have unequal : numbersEqual? x y = none := by
    rcases undefined with rfl | rfl <;> simp [numbersEqual?]
  cases op with
  | lt | gt | le | ge =>
    rw [evaluate_numeric context (by decide), isLeft, isRight]
    show Except.ok _ = _
    rcases undefined with rfl | rfl <;> simp [evalNumeric]
  | eq | ne =>
    rw [evaluate, isLeft, isRight]
    show Except.ok _ = _
    rw [unequal]
  | add | sub | mul | div | rem | and | or => contradiction

/-- No range holds what is no number, and with a bound that is none it holds nothing. -/
theorem evaluate_range {context : EvalContext} {first low high : Expr} {x l h : Float}
    (isFirst : evaluate context first = .ok (.number x)) (isLow : evaluate context low = .ok (.number l))
    (isHigh : evaluate context high = .ok (.number h)) (undefined : x = nan ∨ l = nan ∨ h = nan) :
    evaluate context (.call Function.inRange.name [first, low, high]) = .ok (.boolean false) := by
  have areNumbers : EvaluateTo context [first, low, high] [x, l, h] := by
    simp [EvaluateTo, isFirst, isLow, isHigh]
  apply evaluate_call_of_numbers areNumbers
  unfold Function.apply?
  rcases undefined with rfl | rfl | rfl <;> simp

/-- A clamp is no number only if neither its operand nor a bound is one. -/
theorem evaluate_clamp {context : EvalContext} {first low high : Expr} {x l h : Float}
    (isFirst : evaluate context first = .ok (.number x)) (isLow : evaluate context low = .ok (.number l))
    (isHigh : evaluate context high = .ok (.number h)) :
    ∃ y, evaluate context (.call Function.clamp.name [first, low, high]) = .ok (.number y) ∧
      (y = nan ↔ x = nan ∧ l = nan ∧ h = nan) := by
  have areNumbers : EvaluateTo context [first, low, high] [x, l, h] := by
    simp [EvaluateTo, isFirst, isLow, isHigh]
  refine ⟨Number.least (Number.greatest x l) h, evaluate_call_of_numbers areNumbers rfl, ?_⟩
  rw [Number.least_eq_nan_iff, Number.greatest_eq_nan_iff, and_assoc]

/-! ### Spoiled values -/

namespace Expr

variable {context : EvalContext}

/-- What a read without a number reaches has no number as its value. -/
theorem Spoiled.evaluate {e : Expr} (spoiled : e.Spoiled context) {value : Value}
    (evaluated : evaluate context e = .ok value) : value = .number nan := by
  induction spoiled generalizing value with
  | identifier missing =>
    rw [TradingStrategy.evaluate, missing] at evaluated
    exact (Except.ok.inj evaluated).symm
  | @lookback name offset missing =>
    rw [TradingStrategy.evaluate] at evaluated
    obtain ⟨index, isIndex, evaluated⟩ := bind_eq_ok evaluated
    obtain ⟨bars, areBars, evaluated⟩ := bind_eq_ok evaluated
    rw [number, TradingStrategy.evaluate] at isIndex
    rw [← Except.ok.inj isIndex] at areBars
    have sameBars : bars = Number.toNatClamped offset := by
      unfold offsetOf at areBars
      split at areBars
      · contradiction
      · next same =>
        obtain rfl := Value.number.inj same
        split at areBars
        · exact (Except.ok.inj areBars).symm
        · contradiction
    rw [sameBars, missing] at evaluated
    exact (Except.ok.inj evaluated).symm
  | @unary op arg spoiled inductionHypothesis =>
    by_cases negation : op = .not
    · rw [negation, TradingStrategy.evaluate] at evaluated
      obtain ⟨operand, isOperand, evaluated⟩ := bind_eq_ok evaluated
      rw [inductionHypothesis isOperand] at evaluated
      contradiction
    · obtain ⟨x, isX, passes, _⟩ := evaluate_unary negation evaluated
      exact passes (Value.number.inj (inductionHypothesis isX))
  | left numeric spoiled right inductionHypothesis =>
    obtain ⟨x, y, isX, isY, rfl⟩ := evaluate_arithmetic numeric evaluated
    exact evalNumeric_arithmetic numeric (.inl (Value.number.inj (inductionHypothesis isX)))
  | right numeric left spoiled inductionHypothesis =>
    obtain ⟨x, y, isX, isY, rfl⟩ := evaluate_arithmetic numeric evaluated
    exact evalNumeric_arithmetic numeric (.inr (Value.number.inj (inductionHypothesis isY)))
  | @argument function passes args arg member spoiled inductionHypothesis =>
    obtain ⟨numbers, areNumbers, applied⟩ := evaluate_known evaluated
    obtain ⟨x, among, isX⟩ := areNumbers.of_arg member
    rw [Value.number.inj (inductionHypothesis isX)] at among
    exact Function.apply?_passes passes applied among
  | rounded spoiled rest inductionHypothesis =>
    obtain ⟨numbers, areNumbers, applied⟩ := evaluate_known evaluated
    cases numbers with
    | nil => contradiction
    | cons x others =>
      rw [Value.number.inj (inductionHypothesis (List.cons.inj areNumbers).1)] at applied
      exact Function.apply?_rounded applied
  | clamped spoiled inductionHypothesis =>
    obtain ⟨numbers, areNumbers, applied⟩ := evaluate_known evaluated
    refine Function.apply?_clamped applied fun x among => ?_
    obtain ⟨arg, member, isX⟩ := areNumbers.of_number among
    exact Value.number.inj (inductionHypothesis arg member isX)

theorem mem_readsOfAll {read : String × Nat} {args : List Expr} (member : read ∈ readsOfAll args) :
    ∃ arg ∈ args, read ∈ arg.reads := by
  induction args with
  | nil => contradiction
  | cons first rest inductionHypothesis =>
    rcases List.mem_append.mp member with inFirst | inRest
    · exact ⟨first, List.mem_cons_self, inFirst⟩
    · obtain ⟨arg, among, inArg⟩ := inductionHypothesis inRest
      exact ⟨arg, List.mem_cons_of_mem first among, inArg⟩

theorem mem_callsOfAll {call : String × Nat} {args : List Expr} {arg : Expr} (member : arg ∈ args)
    (inArg : call ∈ arg.calls) : call ∈ callsOfAll args := by
  induction args with
  | nil => contradiction
  | cons first rest inductionHypothesis =>
    rcases List.mem_cons.mp member with rfl | among
    · exact List.mem_append_left _ inArg
    · exact List.mem_append_right _ (inductionHypothesis among)

/-- An arithmetic expression has a number as its value if it has one. -/
theorem IsArithmetic.isNumber {e : Expr} (arithmetic : e.IsArithmetic) {value : Value}
    (evaluated : TradingStrategy.evaluate context e = .ok value) : ∃ x, value = .number x := by
  cases arithmetic with
  | number x => exact ⟨x, (Except.ok.inj evaluated).symm⟩
  | identifier name =>
    rw [TradingStrategy.evaluate] at evaluated
    cases found : context.lookup name 0 with
    | error error => simp [found, Except.map] at evaluated
    | ok x =>
      rw [found] at evaluated
      exact ⟨x, (Except.ok.inj evaluated).symm⟩
  | lookback name offset =>
    rw [TradingStrategy.evaluate] at evaluated
    obtain ⟨index, _, evaluated⟩ := bind_eq_ok evaluated
    obtain ⟨bars, _, evaluated⟩ := bind_eq_ok evaluated
    cases found : context.lookup name bars with
    | error error => simp [found, Except.map] at evaluated
    | ok x =>
      rw [found] at evaluated
      exact ⟨x, (Except.ok.inj evaluated).symm⟩
  | unary numeric =>
    obtain ⟨_, _, _, isNumber⟩ := evaluate_unary numeric evaluated
    exact isNumber
  | @binary op numeric =>
    obtain ⟨x, y, _, _, rfl⟩ := evaluate_arithmetic numeric evaluated
    cases op <;> first | exact ⟨_, rfl⟩ | contradiction
  | call numeric =>
    obtain ⟨numbers, _, applied⟩ := evaluate_known evaluated
    exact Function.apply?_number numeric applied

/-- Neither a clamp nor a rounding at a number of places is called. -/
def IsPlain (e : Expr) : Prop :=
  ∀ call ∈ e.calls, call.1 ≠ Function.clamp.name ∧ call ≠ (Function.round.name, 2)

/-- Every read of a plain arithmetic expression reaches its value. -/
theorem IsArithmetic.spoiled {e : Expr} (arithmetic : e.IsArithmetic) {value : Value}
    (evaluated : TradingStrategy.evaluate context e = .ok value) (plain : e.IsPlain) {read : String × Nat}
    (member : read ∈ e.reads) (missing : context.lookup read.1 read.2 = .ok nan) : e.Spoiled context := by
  induction arithmetic generalizing value with
  | number => contradiction
  | identifier name =>
    rw [List.mem_singleton.mp member] at missing
    exact .identifier missing
  | lookback name offset =>
    rw [List.mem_singleton.mp member] at missing
    exact .lookback missing
  | unary numeric arithmetic inductionHypothesis =>
    obtain ⟨_, isArg, _⟩ := evaluate_unary numeric evaluated
    exact .unary (inductionHypothesis isArg plain member)
  | binary numeric leftArithmetic rightArithmetic leftHypothesis rightHypothesis =>
    obtain ⟨_, _, isLeft, isRight, _⟩ := evaluate_arithmetic numeric evaluated
    rcases List.mem_append.mp member with inLeft | inRight
    · have leftPlain : IsPlain _ := fun call among => plain call (List.mem_append_left _ among)
      exact .left numeric (leftHypothesis isLeft leftPlain inLeft) _
    · have rightPlain : IsPlain _ := fun call among => plain call (List.mem_append_right _ among)
      exact .right numeric _ (rightHypothesis isRight rightPlain inRight)
  | @call function numeric args arithmetic inductionHypothesis =>
    obtain ⟨numbers, areNumbers, applied⟩ := evaluate_known evaluated
    obtain ⟨arg, among, inArg⟩ := mem_readsOfAll member
    obtain ⟨_, _, isArg⟩ := areNumbers.of_arg among
    have argPlain : arg.IsPlain := fun call inCalls =>
      plain call (List.mem_cons_of_mem _ (mem_callsOfAll among inCalls))
    have spoiled := inductionHypothesis arg among isArg argPlain inArg
    obtain ⟨noClamp, noPlaces⟩ := plain (function.name, args.length) List.mem_cons_self
    cases function with
    | inRange => exact absurd rfl numeric
    | clamp => exact absurd rfl noClamp
    | abs => exact .argument (.inl rfl) among spoiled
    | min => exact .argument (.inr (.inl rfl)) among spoiled
    | max => exact .argument (.inr (.inr rfl)) among spoiled
    | round =>
      -- With one argument it is the number that is rounded, and more are excluded.
      have single : args.length = 1 := by
        rw [areNumbers.length_eq]
        rcases Function.round_length applied with one | two
        · exact one
        · rw [areNumbers.length_eq, two] at noPlaces
          exact absurd rfl noPlaces
      obtain ⟨only, rfl⟩ := List.length_eq_one_iff.mp single
      obtain rfl := List.mem_singleton.mp among
      exact .rounded spoiled []

/-- What a context without a number for some reads makes of an arithmetic expression with a value, and of the
comparisons with that value. -/
structure PassesOn (context : EvalContext) (e : Expr) (x : Float) : Prop where
  /-- What a read without a number reaches is no number. -/
  spoiled : e.Spoiled context → x = nan
  /-- In a plain expression every read reaches the value. -/
  plain : e.IsPlain → ∀ read ∈ e.reads, context.lookup read.1 read.2 = .ok nan → x = nan
  /-- With no number as its value, no comparison with the expression holds, on either side. -/
  compared : x = nan → ∀ op : BinaryOp, op.isComparison = true → ∀ other y,
    evaluate context other = .ok (.number y) →
      evaluate context (.binary op e other) = .ok (.boolean false) ∧
      evaluate context (.binary op other e) = .ok (.boolean false)
  /-- It is in no range, and it bounds none that holds anything. -/
  ranged : x = nan → ∀ other another y z, evaluate context other = .ok (.number y) →
    evaluate context another = .ok (.number z) →
    ∀ args ∈ [[e, other, another], [other, e, another], [other, another, e]],
      evaluate context (.call Function.inRange.name args) = .ok (.boolean false)
  /-- A clamp of it is a number nevertheless, unless both bounds are none either. -/
  clamped : ∀ low high l h, evaluate context low = .ok (.number l) → evaluate context high = .ok (.number h) →
    ∃ y, evaluate context (.call Function.clamp.name [e, low, high]) = .ok (.number y) ∧
      (y = nan ↔ x = nan ∧ l = nan ∧ h = nan)
  /-- As the places of a rounding it stands for zero. -/
  places : x = nan → ∀ other y, evaluate context other = .ok (.number y) →
    evaluate context (.call Function.round.name [other, e]) = .ok (.number (roundAt y 0.0))

end Expr

/-- What has no number when an arithmetic expression is evaluated reaches its value, unless a clamp or the places of a
rounding keep it away. Then the value is no number, and no comparison and no range holds of it, but a clamp takes its
bounds instead, and as the places of a rounding it counts as zero. -/
theorem arithmetic_passes_on {context : EvalContext} {e : Expr} {value : Value} (arithmetic : e.IsArithmetic)
    (evaluated : evaluate context e = .ok value) : ∃ x, value = .number x ∧ e.PassesOn context x := by
  obtain ⟨x, rfl⟩ := arithmetic.isNumber evaluated
  refine ⟨x, rfl, ?_⟩
  constructor
  · exact fun spoiled => Value.number.inj (spoiled.evaluate evaluated)
  · exact fun plain read member missing =>
      Value.number.inj ((arithmetic.spoiled evaluated plain member missing).evaluate evaluated)
  · intro undefined op compares other y isOther
    exact ⟨evaluate_comparison compares evaluated isOther (.inl undefined),
      evaluate_comparison compares isOther evaluated (.inr undefined)⟩
  · intro undefined other another y z isOther isAnother args member
    simp only [List.mem_cons, List.not_mem_nil, or_false] at member
    rcases member with rfl | rfl | rfl
    · exact evaluate_range evaluated isOther isAnother (.inl undefined)
    · exact evaluate_range isOther evaluated isAnother (.inr (.inl undefined))
    · exact evaluate_range isOther isAnother evaluated (.inr (.inr undefined))
  · exact fun low high l h isLow isHigh => evaluate_clamp evaluated isLow isHigh
  · rintro rfl other y isOther
    have areNumbers : EvaluateTo context [other, e] [y, nan] := by simp [EvaluateTo, isOther, evaluated]
    rw [← roundAt_nan]
    exact evaluate_call_of_numbers areNumbers rfl

/-! ### An average that has not warmed up -/

/-- The close and an average that is no number yet. -/
def warmingContext : EvalContext :=
  .ofHistory ((History.empty maxHistory).push ⟨⟨60, 0⟩, [("ema_20", nan), ("close", 10.0)]⟩)

def clampedAverage : Expr :=
  .call Function.clamp.name [.identifier "ema_20", .number 0.0, .number 100.0]

def closeToPlaces : Expr :=
  .call Function.round.name [.identifier "close", .identifier "ema_20"]

theorem clampedAverage_arithmetic : clampedAverage.IsArithmetic := by
  refine .call (by decide) fun arg member => ?_
  simp only [List.mem_cons, List.not_mem_nil, or_false] at member
  rcases member with rfl | rfl | rfl
  · exact .identifier "ema_20"
  · exact .number 0.0
  · exact .number 100.0

/-- A clamp makes a bound of the average, and with that a comparison holds. A rounding takes it for no places. -/
theorem clamp_keeps_nan_away :
    clampedAverage.IsArithmetic ∧ ("ema_20", 0) ∈ clampedAverage.reads ∧ ("ema_20", 0) ∈ closeToPlaces.reads ∧
      warmingContext.lookup "ema_20" 0 = .ok nan ∧
      evaluate warmingContext clampedAverage = .ok (.number 0.0) ∧
      evaluate warmingContext (.binary .lt clampedAverage (.number 50.0)) = .ok (.boolean true) ∧
      evaluate warmingContext closeToPlaces = .ok (.number 10.0) := by
  have rounded : (evaluate warmingContext closeToPlaces).toOption.any (fun value =>
      decide (value = .number 10.0)) = true := by decide +kernel
  obtain ⟨value, evaluated, same⟩ := ok_of_any rounded
  rw [of_decide_eq_true same] at evaluated
  exact ⟨clampedAverage_arithmetic, by decide, by decide, rfl, rfl, rfl, evaluated⟩

/-- The distance of the close from twice the average. -/
def distanceToAverage : Expr :=
  .binary .sub (.identifier "close") (.binary .mul (.number 2.0) (.identifier "ema_20"))

/-- Plain arithmetic with the average is no number, and it is neither below fifty nor above. -/
theorem warming_average_passes_on :
    distanceToAverage.IsArithmetic ∧ evaluate warmingContext distanceToAverage = .ok (.number nan) ∧
      evaluate warmingContext (.binary .lt distanceToAverage (.number 50.0)) = .ok (.boolean false) ∧
      evaluate warmingContext (.binary .lt (.number 50.0) distanceToAverage) = .ok (.boolean false) := by
  have arithmetic : distanceToAverage.IsArithmetic :=
    .binary rfl (.identifier "close") (.binary rfl (.number 2.0) (.identifier "ema_20"))
  have plain : distanceToAverage.IsPlain := fun call member => absurd member List.not_mem_nil
  obtain ⟨value, evaluated⟩ : ∃ value, evaluate warmingContext distanceToAverage = .ok value := ⟨_, rfl⟩
  obtain ⟨x, rfl, passes⟩ := arithmetic_passes_on arithmetic evaluated
  obtain rfl := passes.plain plain ("ema_20", 0) (by decide) rfl
  obtain ⟨below, above⟩ := passes.compared rfl .lt rfl (.number 50.0) 50.0 rfl
  exact ⟨arithmetic, evaluated, below, above⟩

end TradingStrategy

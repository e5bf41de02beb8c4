import TradingStrategy.Expr.Eval
import TradingStrategy.Expr.Scope
import TradingStrategy.Proofs.Expr.Indexing
import TradingStrategy.Proofs.Outcome

/-!
Evaluation of expressions that a check of scopes has let pass.

Owns:
- what such a check establishes of an expression, and that the disjunction of checked expressions is checked;
- the errors that no check can foresee: operands of the wrong type, an offset that is computed, and the past of a
  runtime variable;
- `callError?_eq_none_iff`: the functions that the check allows are those that the evaluator knows;
- `evaluate_unforeseeable`: where all names in scope have values, a checked expression has no other errors.
-/

namespace TradingStrategy

/-- A name has a value in a context: it is bound, or the newest snapshot has it. -/
def EvalContext.Knows (context : EvalContext) (name : String) : Prop :=
  (valueOf? name context.bindings).isSome ∨
    ∃ snapshot, context.history.latest? = some snapshot ∧ (snapshot.get? name).isSome

/-- A context serves a scope: it knows every name that is in scope, and only runtime variables are bound. -/
structure EvalContext.Serves (context : EvalContext) (declared : List String) (scope : Scope) : Prop where
  knows : ∀ name, inScope declared scope name = true → context.Knows name
  binds : ∀ name, (valueOf? name context.bindings).isSome → name ∈ runtimeVariables

/-- An expression that a check of scopes has let pass. -/
structure Expr.Checked (declared : List String) (scope : Scope) (e : Expr) : Prop where
  named : ∀ name ∈ e.names, inScope declared scope name = true
  callable : ∀ call ∈ e.calls, callError? call = none
  indexed : e.Indexed

/-- An access whose index is no number literal. -/
def Expr.HasComputedIndex : Expr → Prop
  | lookback _ (literal (.number _)) => False
  | lookback _ _ => True
  | _ => False

/-- A runtime variable that is read some bars back. -/
def Expr.ReadsVariablePast (access : Expr) : Prop :=
  ∃ name ∈ runtimeVariables, ∃ offset, 0 < offset ∧ access = (identifier name).barsBack offset

/-- An error that no check of scopes can foresee. -/
def EvalError.IsUnforeseeable : EvalError → Prop
  | unknownIdentifier _ | unknownFunction _ | arity .. => False
  | invalidOffset access _ => access.HasComputedIndex ∨ access.ReadsVariablePast
  | typeMismatch .. | notBoolean .. => True

/-! ### What a check establishes -/

theorem checkScope_named {declared : List String} {scope : Scope} {e : Expr}
    (checked : checkScope declared scope e = .ok ()) : ∀ name ∈ e.names, inScope declared scope name = true := by
  intro name member
  unfold checkScope at checked
  split at checked
  · next none_undeclared =>
    have listed : name ∈ e.identifiers := (Text.mem_ascending _ _ _).mpr member
    have := List.filter_eq_nil_iff.mp none_undeclared name listed
    simpa using this
  · contradiction

theorem checkScope_callable {declared : List String} {scope : Scope} {e : Expr}
    (checked : checkScope declared scope e = .ok ()) : ∀ call ∈ e.calls, callError? call = none := by
  unfold checkScope at checked
  split at checked
  · split at checked
    · contradiction
    · next no_error => exact List.findSome?_eq_none_iff.mp no_error
  · contradiction

theorem Expr.Checked.binary {declared : List String} {scope : Scope} {left right : Expr}
    (leftChecked : left.Checked declared scope) (op : BinaryOp) (rightChecked : right.Checked declared scope) :
    (Expr.binary op left right).Checked declared scope where
  named := by
    intro name member
    rcases List.mem_append.mp member with inLeft | inRight
    · exact leftChecked.named name inLeft
    · exact rightChecked.named name inRight
  callable := by
    intro call member
    rcases List.mem_append.mp member with inLeft | inRight
    · exact leftChecked.callable call inLeft
    · exact rightChecked.callable call inRight
  indexed := ⟨leftChecked.indexed, rightChecked.indexed⟩

namespace Expr.Checked

variable {declared : List String} {scope : Scope}

theorem left {op : BinaryOp} {left right : Expr} (checked : (Expr.binary op left right).Checked declared scope) :
    left.Checked declared scope where
  named name member := checked.named name (List.mem_append_left _ member)
  callable call member := checked.callable call (List.mem_append_left _ member)
  indexed := checked.indexed.1

theorem right {op : BinaryOp} {left right : Expr} (checked : (Expr.binary op left right).Checked declared scope) :
    right.Checked declared scope where
  named name member := checked.named name (List.mem_append_right _ member)
  callable call member := checked.callable call (List.mem_append_right _ member)
  indexed := checked.indexed.2

theorem arg {op : UnaryOp} {arg : Expr} (checked : (Expr.unary op arg).Checked declared scope) :
    arg.Checked declared scope :=
  ⟨checked.named, checked.callable, checked.indexed⟩

theorem index {object index : Expr} (checked : (Expr.lookback object index).Checked declared scope) :
    index.Checked declared scope where
  named name member := checked.named name (List.mem_append_right _ member)
  callable call member := checked.callable call (List.mem_append_right _ member)
  indexed := checked.indexed.2.2

theorem args {name : String} {args : List Expr} (checked : (Expr.call name args).Checked declared scope) :
    ∀ e ∈ args, e.Checked declared scope := by
  have parts : ∀ args : List Expr, (∀ name ∈ namesOfAll args, inScope declared scope name = true) →
      (∀ call ∈ callsOfAll args, callError? call = none) → AllIndexed args →
      ∀ e ∈ args, e.Checked declared scope := by
    intro args
    induction args with
    | nil => exact fun _ _ _ e member => absurd member (List.not_mem_nil)
    | cons first rest inductionHypothesis =>
      intro named callable indexed e member
      rcases List.mem_cons.mp member with rfl | member
      · exact ⟨fun name inside => named name (List.mem_append_left _ inside),
          fun call inside => callable call (List.mem_append_left _ inside), indexed.1⟩
      · exact inductionHypothesis (fun name inside => named name (List.mem_append_right _ inside))
          (fun call inside => callable call (List.mem_append_right _ inside)) indexed.2 e member
  exact parts args checked.named (fun call inside => checked.callable call (List.mem_cons_of_mem _ inside))
    checked.indexed

end Expr.Checked

/-- The disjunction of checked expressions is checked. -/
theorem Expr.anyOf_checked {declared : List String} {scope : Scope} {list : List Expr}
    (checked : ∀ e ∈ list, e.Checked declared scope) : (Expr.anyOf list).Checked declared scope := by
  cases list with
  | nil => exact ⟨by simp [anyOf, boolean, names], by simp [anyOf, boolean, calls], trivial⟩
  | cons first rest =>
    have folded : ∀ (rest : List Expr) (first : Expr), first.Checked declared scope →
        (∀ e ∈ rest, e.Checked declared scope) → (rest.foldl (Expr.binary .or) first).Checked declared scope := by
      intro rest
      induction rest with
      | nil => exact fun _ firstChecked _ => firstChecked
      | cons second rest inductionHypothesis =>
        intro first firstChecked restChecked
        have bothChecked := firstChecked.binary .or (restChecked second (by simp))
        exact inductionHypothesis _ bothChecked fun e member => restChecked e (by simp [member])
    exact folded rest first (checked first (by simp)) fun e member => checked e (by simp [member])

/-! ### Lookups and calls -/

theorem EvalContext.lookup_unforeseeable {context : EvalContext} {declared : List String} {scope : Scope}
    (serves : context.Serves declared scope) {name : String} (visible : inScope declared scope name = true)
    {offset : Nat} {error : EvalError} (failed : context.lookup name offset = .error error) :
    error.IsUnforeseeable := by
  unfold lookup at failed
  split at failed
  · next value bound =>
    split at failed
    · next positive =>
      have same := Except.error.inj failed
      subst same
      exact .inr ⟨name, serves.binds name (by simp [bound]), offset, positive, rfl⟩
    · contradiction
  · next unbound =>
    split at failed
    · next unknown =>
      rcases serves.knows name visible with bound | ⟨snapshot, latest, present⟩
      · simp [unbound] at bound
      · simp only [latest, Option.bind_some] at unknown
        simp [unknown] at present
    · contradiction

theorem Value.asNumber_unforeseeable {place : String} {value : Value} {error : EvalError}
    (failed : value.asNumber place = .error error) : error.IsUnforeseeable := by
  cases value with
  | number value => contradiction
  | boolean value => rw [← Except.error.inj failed]; trivial

theorem Value.asBoolean_unforeseeable {place : String} {value : Value} {error : EvalError}
    (failed : value.asBoolean place = .error error) : error.IsUnforeseeable := by
  cases value with
  | number value => rw [← Except.error.inj failed]; trivial
  | boolean value => contradiction

private theorem numbers_unforeseeable (name : String) (values : List Value) :
    (∀ error, values.mapM (Value.asNumber name) = .error error → error.IsUnforeseeable) ∧
      ∀ numbers, values.mapM (Value.asNumber name) = .ok numbers → numbers.length = values.length := by
  induction values with
  | nil => exact ⟨fun _ failed => by contradiction, fun _ done => by rw [← Except.ok.inj done]; rfl⟩
  | cons first rest inductionHypothesis =>
    rw [List.mapM_cons]
    constructor
    · intro error failed
      rcases bind_eq_error failed with failed | ⟨number, _, failed⟩
      · exact Value.asNumber_unforeseeable failed
      · rcases bind_eq_error failed with failed | ⟨others, _, failed⟩
        · exact inductionHypothesis.1 error failed
        · contradiction
    · intro numbers done
      obtain ⟨number, _, done⟩ := bind_eq_ok done
      obtain ⟨others, readOthers, done⟩ := bind_eq_ok done
      rw [← Except.ok.inj done, List.length_cons, List.length_cons, inductionHypothesis.2 others readOthers]

/-! #### The two tables of functions -/

theorem Function.name_of_ofName? {text : String} {function : Function} (known : ofName? text = some function) :
    function.name = text := by
  unfold ofName? at known
  split at known <;> cases known <;> rfl

/-- The evaluator knows the names that the check allows. -/
theorem Function.ofName?_eq_none_iff (text : String) : ofName? text = none ↔ allowedFunctions.lookup text = none := by
  constructor
  · intro unknown
    rw [List.lookup_eq_none_iff]
    simp only [allowedFunctions, List.forall_mem_cons, bne_iff_ne]
    refine ⟨?_, ?_, ?_, ?_, ?_, ?_, List.forall_mem_nil _⟩ <;> rintro rfl <;> contradiction
  · intro notAllowed
    cases known : ofName? text with
    | none => rfl
    | some function =>
      rw [← name_of_ofName? known] at notAllowed
      cases function <;> contradiction

theorem callError?_name (function : Function) (count : Nat) :
    callError? (function.name, count) = none ↔ match function with
      | .abs => count = 1
      | .clamp | .inRange => count = 3
      | .min | .max => 1 ≤ count
      | .round => 1 ≤ count ∧ count ≤ 2 := by
  cases function <;>
    simp [callError?, Function.name, allowedFunctions, List.lookup_cons, Arity.accepts, Nat.one_le_iff_ne_zero]

/-- The check and the evaluator go by tables of their own, and the tables agree: the check lets a call pass exactly if
the evaluator knows the function and has a value of it for so many numbers. -/
theorem callError?_eq_none_iff (text : String) (numbers : List Float) :
    callError? (text, numbers.length) = none ↔
      ∃ function, Function.ofName? text = some function ∧ function.apply? numbers ≠ none := by
  cases known : Function.ofName? text with
  | none => simp [callError?, (Function.ofName?_eq_none_iff text).mp known]
  | some function =>
    obtain rfl := Function.name_of_ofName? known
    rw [callError?_name]
    simp only [Option.some.injEq, exists_eq_left']
    match numbers with
    | [] | [_] | [_, _] | [_, _, _] => cases function <;> simp [ Function.apply?]
    | _ :: _ :: _ :: _ :: rest => cases function <;> simp [ Function.apply?]

theorem evalCall_unforeseeable {name : String} {values : List Value}
    (callable : callError? (name, values.length) = none) {error : EvalError}
    (failed : evalCall name values = .error error) : error.IsUnforeseeable := by
  unfold evalCall at failed
  split at failed
  · next unknown =>
    simp [callError?, (Function.ofName?_eq_none_iff name).mp unknown] at callable
  · next function known =>
    split at failed
    · next inner notNumbers =>
      rw [← Except.error.inj failed]
      exact (numbers_unforeseeable name values).1 inner notNumbers
    · next numbers areNumbers =>
      rw [← (numbers_unforeseeable name values).2 numbers areNumbers] at callable
      obtain ⟨other, isOther, applies⟩ := (callError?_eq_none_iff name numbers).mp callable
      rw [known] at isOther
      split at failed
      · contradiction
      · next noValue =>
        rw [← Option.some.inj isOther] at applies
        exact absurd noValue applies

theorem evaluateAll_length {context : EvalContext} {args : List Expr} {values : List Value}
    (evaluated : evaluateAll context args = .ok values) : values.length = args.length := by
  induction args generalizing values with
  | nil => rw [← Except.ok.inj evaluated]; rfl
  | cons first rest inductionHypothesis =>
    obtain ⟨value, _, evaluated⟩ := bind_eq_ok evaluated
    obtain ⟨others, readOthers, evaluated⟩ := bind_eq_ok evaluated
    rw [← Except.ok.inj evaluated, List.length_cons, List.length_cons, inductionHypothesis readOthers]

theorem offsetOf_unforeseeable {name : String} {index : Expr} {value : Value} {context : EvalContext}
    (admitted : index.AdmittedIndex) (evaluated : evaluate context index = .ok value) {error : EvalError}
    (failed : offsetOf (.lookback (.identifier name) index) value = .error error) : error.IsUnforeseeable := by
  -- A literal that is admitted is its own value and an offset, so the index is computed.
  have computed : (Expr.lookback (.identifier name) index).HasComputedIndex := by
    cases index with
    | literal literal =>
      cases literal with
      | number n =>
        rw [evaluate] at evaluated
        rw [← Except.ok.inj evaluated] at failed
        change (if Number.isWhole n && 0.0 ≤ n && n ≤ Float.ofNat Expr.maxOffset then _ else _) = _ at failed
        have inRange : (Number.isWhole n && 0.0 ≤ n && n ≤ Float.ofNat Expr.maxOffset) = true := admitted
        rw [if_pos inRange] at failed
        contradiction
      | boolean value => exact admitted.elim
    | _ => trivial
  unfold offsetOf at failed
  split at failed
  · rw [← Except.error.inj failed]
    exact .inl computed
  · split at failed
    · contradiction
    · rw [← Except.error.inj failed]
      exact .inl computed

theorem evalUnary_unforeseeable {op : UnaryOp} {arg : Value} {error : EvalError}
    (failed : evalUnary op arg = .error error) : error.IsUnforeseeable := by
  cases op with
  | neg => exact Value.asNumber_unforeseeable (map_eq_error failed)
  | plus => exact Value.asNumber_unforeseeable (map_eq_error failed)
  | not => exact Value.asBoolean_unforeseeable (map_eq_error failed)

theorem evalEquality_unforeseeable {op : BinaryOp} {left right : Value} {error : EvalError}
    (failed : evalEquality op left right = .error error) : error.IsUnforeseeable := by
  cases left <;> cases right <;> first | contradiction | (rw [← Except.error.inj failed]; trivial)

/-! ### Expressions -/

mutual

/-- Where all names in scope have values, a checked expression fails only with errors that its check could not
foresee. -/
theorem evaluate_unforeseeable {context : EvalContext} {declared : List String} {scope : Scope}
    (serves : context.Serves declared scope) (e : Expr) (checked : e.Checked declared scope) {error : EvalError}
    (failed : evaluate context e = .error error) : error.IsUnforeseeable := by
  cases e with
  | literal value => contradiction
  | identifier name =>
    rw [evaluate] at failed
    exact context.lookup_unforeseeable serves (checked.named name (by simp [Expr.names])) (map_eq_error failed)
  | unary op arg =>
    rw [evaluate] at failed
    rcases bind_eq_error failed with failed | ⟨value, _, failed⟩
    · exact evaluate_unforeseeable serves arg checked.arg failed
    · exact evalUnary_unforeseeable failed
  | call name args =>
    rw [evaluate] at failed
    rcases bind_eq_error failed with failed | ⟨values, evaluated, failed⟩
    · exact evaluateAll_unforeseeable serves args checked.args failed
    · have callable := checked.callable (name, args.length) (by simp [Expr.calls])
      rw [← evaluateAll_length evaluated] at callable
      exact evalCall_unforeseeable callable failed
  | lookback object index =>
    obtain ⟨⟨name, rfl⟩, admitted, _⟩ := checked.indexed
    rw [evaluate] at failed
    rcases bind_eq_error failed with failed | ⟨value, evaluated, failed⟩
    · exact evaluate_unforeseeable serves index checked.index failed
    · rcases bind_eq_error failed with failed | ⟨offset, _, failed⟩
      · exact offsetOf_unforeseeable admitted evaluated failed
      · exact context.lookup_unforeseeable serves (checked.named name (by simp [Expr.names])) (map_eq_error failed)
  | binary op left right =>
    have leftFails {error : EvalError} (failed : evaluate context left = .error error) : error.IsUnforeseeable :=
      evaluate_unforeseeable serves left checked.left failed
    have rightFails {error : EvalError} (failed : evaluate context right = .error error) : error.IsUnforeseeable :=
      evaluate_unforeseeable serves right checked.right failed
    cases op with
    | and =>
      rw [evaluate] at failed
      rcases bind_eq_error failed with failed | ⟨value, _, failed⟩
      · exact leftFails failed
      · rcases bind_eq_error failed with failed | ⟨truth, _, failed⟩
        · exact Value.asBoolean_unforeseeable failed
        · split at failed
          · rcases bind_eq_error failed with failed | ⟨other, _, failed⟩
            · exact rightFails failed
            · exact Value.asBoolean_unforeseeable (map_eq_error failed)
          · contradiction
    | or =>
      rw [evaluate] at failed
      rcases bind_eq_error failed with failed | ⟨value, _, failed⟩
      · exact leftFails failed
      · rcases bind_eq_error failed with failed | ⟨truth, _, failed⟩
        · exact Value.asBoolean_unforeseeable failed
        · split at failed
          · contradiction
          · rcases bind_eq_error failed with failed | ⟨other, _, failed⟩
            · exact rightFails failed
            · exact Value.asBoolean_unforeseeable (map_eq_error failed)
    | eq | ne =>
      rw [evaluate] at failed
      rcases bind_eq_error failed with failed | ⟨value, _, failed⟩
      · exact leftFails failed
      · rcases bind_eq_error failed with failed | ⟨other, _, failed⟩
        · exact rightFails failed
        · exact evalEquality_unforeseeable failed
    | _ =>
      rw [evaluate] at failed
      · rcases bind_eq_error failed with failed | ⟨value, _, failed⟩
        · exact leftFails failed
        · rcases bind_eq_error failed with failed | ⟨number, _, failed⟩
          · exact Value.asNumber_unforeseeable failed
          · rcases bind_eq_error failed with failed | ⟨value, _, failed⟩
            · exact rightFails failed
            · rcases bind_eq_error failed with failed | ⟨number, _, failed⟩
              · exact Value.asNumber_unforeseeable failed
              · contradiction
      all_goals exact fun same => by contradiction

/-- The same for several expressions. -/
theorem evaluateAll_unforeseeable {context : EvalContext} {declared : List String} {scope : Scope}
    (serves : context.Serves declared scope) (args : List Expr) (checked : ∀ e ∈ args, e.Checked declared scope)
    {error : EvalError} (failed : evaluateAll context args = .error error) : error.IsUnforeseeable := by
  cases args with
  | nil => contradiction
  | cons first rest =>
    rcases bind_eq_error failed with failed | ⟨value, _, failed⟩
    · exact evaluate_unforeseeable serves first (checked first (by simp)) failed
    · rcases bind_eq_error failed with failed | ⟨others, _, failed⟩
      · exact evaluateAll_unforeseeable serves rest (fun e member => checked e (by simp [member])) failed
      · contradiction

end

theorem evaluateBool_unforeseeable {context : EvalContext} {declared : List String} {scope : Scope}
    (serves : context.Serves declared scope) {e : Expr} (checked : e.Checked declared scope) {error : EvalError}
    (failed : evaluateBool context e = .error error) : error.IsUnforeseeable := by
  unfold evaluateBool at failed
  split at failed
  · contradiction
  · rw [← Except.error.inj failed]
    trivial
  · next evaluated =>
    rw [← Except.error.inj failed]
    exact evaluate_unforeseeable serves e checked evaluated

theorem evaluateNumber_unforeseeable {context : EvalContext} {declared : List String} {scope : Scope}
    (serves : context.Serves declared scope) {e : Expr} (checked : e.Checked declared scope) {error : EvalError}
    (failed : evaluateNumber context e = .error error) : error.IsUnforeseeable := by
  unfold evaluateNumber at failed
  split at failed
  · contradiction
  · rw [← Except.error.inj failed]
    trivial
  · next evaluated =>
    rw [← Except.error.inj failed]
    exact evaluate_unforeseeable serves e checked evaluated

end TradingStrategy

/-!
Outcomes of computations that can fail.

Owns: how a sequence of two computations ends, that a computation succeeds if its value passes a test and fails if its
error passes one or is the one that is looked for.
-/

namespace TradingStrategy

variable {ε α β : Type}

/-- A sequence succeeds only if both parts do. -/
theorem bind_eq_ok {first : Except ε α} {next : α → Except ε β} {value : β} (ended : first >>= next = .ok value) :
    ∃ inner, first = .ok inner ∧ next inner = .ok value := by
  cases first with
  | error error => contradiction
  | ok inner => exact ⟨inner, rfl, ended⟩

theorem then_eq_ok {first : Except ε Unit} {rest : Except ε α} {value : α} :
    (do first; rest) = .ok value ↔ first = .ok () ∧ rest = .ok value := by
  cases first with
  | error error => simp [bind, Except.bind]
  | ok _ => simp [bind, Except.bind]

/-- A sequence fails with its first part or with its second one. -/
theorem bind_eq_error {first : Except ε α} {next : α → Except ε β} {error : ε}
    (ended : first >>= next = .error error) :
    first = .error error ∨ ∃ inner, first = .ok inner ∧ next inner = .error error := by
  cases first with
  | error other => exact .inl (congrArg Except.error (Except.error.inj ended))
  | ok inner => exact .inr ⟨inner, rfl, ended⟩

theorem map_eq_error {first : Except ε α} {change : α → β} {error : ε} (ended : first.map change = .error error) :
    first = .error error := by
  cases first with
  | error other => exact congrArg Except.error (Except.error.inj ended)
  | ok inner => contradiction

theorem ok_of_mapError {ε' : Type} {first : Except ε α} {change : ε → ε'} {value : α}
    (isOk : first.mapError change = .ok value) : first = .ok value := by
  cases first with
  | error error => contradiction
  | ok inner => exact congrArg Except.ok (Except.ok.inj isOk)

/-- A computation whose value passes a test succeeds, with a value that passes it. -/
theorem ok_of_any {result : Except ε α} {test : α → Bool} (passes : result.toOption.any test = true) :
    ∃ value, result = .ok value ∧ test value = true := by
  cases result with
  | error error => contradiction
  | ok value => exact ⟨value, rfl, passes⟩

/-- A computation whose error is tested to be some error fails with it. -/
theorem eq_error_of_test [DecidableEq ε] {result : Except ε α} {error : ε}
    (tested : (match result with
      | .error other => decide (other = error)
      | .ok _ => false) = true) : result = .error error := by
  cases result with
  | error other => rw [of_decide_eq_true tested]
  | ok value => contradiction

/-- A computation whose error passes a test fails, with an error that passes it. -/
theorem error_of_test {result : Except ε α} {test : ε → Bool}
    (tested : (match result with
      | .error error => test error
      | .ok _ => false) = true) : ∃ error, result = .error error ∧ test error = true := by
  cases result with
  | error error => exact ⟨error, rfl, tested⟩
  | ok value => contradiction

end TradingStrategy

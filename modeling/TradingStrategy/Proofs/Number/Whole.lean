import TradingStrategy.Number.Reader

/-!
Written whole numbers.

Owns: `WritesWhole`, the texts that stand for a whole number, and that the reader reads exactly those whose number lies
within its bounds.
-/

namespace TradingStrategy.Number

/-- Characters that write a whole number: digits, with a sign in front or without one. -/
inductive WritesWhole : List Char → Int → Prop where
  | plain {digits : List Char} (some : digits ≠ []) (areDigits : ∀ c ∈ digits, c.isDigit = true) :
      WritesWhole digits (digitsValue digits)
  | plus {digits : List Char} (some : digits ≠ []) (areDigits : ∀ c ∈ digits, c.isDigit = true) :
      WritesWhole ('+' :: digits) (digitsValue digits)
  | minus {digits : List Char} (some : digits ≠ []) (areDigits : ∀ c ∈ digits, c.isDigit = true) :
      WritesWhole ('-' :: digits) (-digitsValue digits)

variable {chars digits : List Char} {negative : Bool}

/-- A sign and digits that are split stand for the digits, or for their negative behind a minus. -/
theorem writesWhole_of_splitSign (isSplit : splitSign chars = (negative, digits)) (some : digits ≠ [])
    (areDigits : ∀ c ∈ digits, c.isDigit = true) :
    WritesWhole chars (if negative then -(digitsValue digits : Int) else digitsValue digits) := by
  unfold splitSign at isSplit
  split at isSplit <;> obtain ⟨rfl, rfl⟩ := Prod.mk.inj isSplit
  · exact .minus some areDigits
  · exact .plus some areDigits
  · exact .plain some areDigits

theorem splitSign_digits (some : digits ≠ []) (areDigits : ∀ c ∈ digits, c.isDigit = true) :
    splitSign digits = (false, digits) := by
  unfold splitSign
  split
  · exact absurd (areDigits '-' List.mem_cons_self) (by decide)
  · exact absurd (areDigits '+' List.mem_cons_self) (by decide)
  · rfl

/-- The reader reads exactly what is written for a whole number within its bounds. -/
theorem parseInt?_eq_some {low high n : Int} {text : String} :
    parseInt? low high text = some n ↔ WritesWhole text.toList n ∧ low ≤ n ∧ n ≤ high := by
  unfold parseInt?
  generalize text.toList = chars
  constructor
  · intro read
    generalize isSplit : splitSign chars = parts at read
    obtain ⟨negative, digits⟩ := parts
    dsimp only at read
    split at read
    · next areDigits =>
      have written := writesWhole_of_splitSign isSplit areDigits.1 (List.all_eq_true.mp areDigits.2)
      generalize (if negative then -(digitsValue digits : Int) else digitsValue digits) = value at read written
      split at read
      · next inBounds =>
        rw [← Option.some.inj read]
        exact ⟨written, inBounds⟩
      · contradiction
    · contradiction
  · rintro ⟨written, inBounds⟩
    cases written with
    | plain some areDigits =>
      rw [splitSign_digits some areDigits]
      simp [some, List.all_eq_true.mpr areDigits, inBounds]
    | plus some areDigits => simp [splitSign, some, List.all_eq_true.mpr areDigits, inBounds]
    | minus some areDigits => simp [splitSign, some, List.all_eq_true.mpr areDigits, inBounds]

end TradingStrategy.Number

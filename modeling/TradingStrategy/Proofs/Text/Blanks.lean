import TradingStrategy.Proofs.Text.Runs
import TradingStrategy.Text.Blank

/-!
Blanks around characters.

Owns: which visible characters are no blanks, how blanks in front are skipped, and that nothing is trimmed from what has
been trimmed.
-/

namespace TradingStrategy.Text

theorem isDigit_iff (c : Char) : c.isDigit = true ↔ 48 ≤ c.toNat ∧ c.toNat ≤ 57 := by
  simp only [Char.isDigit, Bool.and_eq_true, decide_eq_true_eq, ge_iff_le, UInt32.le_iff_toNat_le]
  rfl

theorem notBlank_of_visible {c : Char} (low : 33 ≤ c.toNat) (high : c.toNat ≤ 126) : isBlank c = false := by
  simp only [isBlank, liesIn, blankRanges, List.any_cons, List.any_nil, Bool.or_false, Bool.or_eq_false_iff,
    Bool.and_eq_false_iff, decide_eq_false_iff_not]
  omega

theorem notBlank_of_isDigit {c : Char} (isDigit : c.isDigit = true) : isBlank c = false := by
  have range := (isDigit_iff c).mp isDigit
  exact notBlank_of_visible (by omega) (by omega)

/-! ### Blanks in front -/

theorem skipBlanks_blanks {blanks : List Char} (blank : ∀ c ∈ blanks, isBlank c = true) (rest : List Char) :
    skipBlanks (blanks ++ rest) = skipBlanks rest :=
  List.dropWhile_append_of_pos blank

theorem skipBlanks_of_notBlank {c : Char} (notBlank : isBlank c = false) (rest : List Char) :
    skipBlanks (c :: rest) = c :: rest :=
  List.dropWhile_cons_of_neg (by simp [notBlank])

theorem skipBlanks_of_ends {chars : List Char} (ends : Ends isBlank chars) : skipBlanks chars = chars := by
  cases chars with
  | nil => rfl
  | cons c rest => exact skipBlanks_of_notBlank ((ends_cons isBlank c rest).mp ends) rest

theorem skipBlanks_skipBlanks (chars : List Char) : skipBlanks (skipBlanks chars) = skipBlanks chars :=
  skipBlanks_of_ends (ends_dropWhile isBlank chars)

theorem exists_blanks (chars : List Char) :
    ∃ blanks, (∀ c ∈ blanks, isBlank c = true) ∧ chars = blanks ++ skipBlanks chars :=
  ⟨chars.takeWhile isBlank, fun _ member => List.all_eq_true.mp List.all_takeWhile _ member,
    List.takeWhile_append_dropWhile.symm⟩

theorem skipBlanks_suffix (chars : List Char) : skipBlanks chars <:+ chars :=
  List.dropWhile_suffix isBlank

/-! ### Blanks at both ends -/

/-- Nothing is trimmed from characters that have been trimmed: those behind the last one were blank, so the first one is
still the first. -/
theorem trimChars_trimChars (chars : List Char) : trimChars (trimChars chars) = trimChars chars := by
  have front : trimChars chars <+: skipBlanks chars := by
    rw [← List.reverse_suffix, trimChars, List.reverse_reverse]
    exact skipBlanks_suffix _
  have ends : Ends isBlank (trimChars chars) := by
    obtain ⟨behind, whole⟩ := front
    intro c isHead
    apply ends_dropWhile isBlank chars c
    rw [← skipBlanks, ← whole, List.head?_append, isHead]
    rfl
  rw [trimChars, skipBlanks_of_ends ends, trimChars, List.reverse_reverse, skipBlanks_skipBlanks]

theorem trim_ofList (chars : List Char) : trim (String.ofList (trimChars chars)) = String.ofList (trimChars chars) := by
  rw [trim, String.toList_ofList, trimChars_trimChars]

end TradingStrategy.Text

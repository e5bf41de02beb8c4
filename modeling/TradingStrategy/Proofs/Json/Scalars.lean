import TradingStrategy.Json.Printer
import TradingStrategy.Json.Reader
import TradingStrategy.Proofs.Number.Document
import TradingStrategy.Proofs.Text.Runs

/-!
Written scalars are read back.

Owns:
- `taken`: what a step of the reader answers, without the proof that the rest is shorter and without the place at which
  reading stopped;
- numbers: a numeral is read to its end, whole numbers of 64 bits and finite doubles are read from what is written of
  them;
- strings: what is written between the quotes is read as the string, whatever characters it has.
-/

namespace TradingStrategy.Json

open Number (Numeral)
open Text (Ends ends_cons run_append)

/-- What a step of the reader takes and what it leaves, if it does not stop. -/
def taken {α : Type} {chars : List Char} : Read α chars → Option (α × List Char)
  | .ok (meaning, rest) => some (meaning, rest.val)
  | .error _ => none

/-! ### Numbers -/

/-- The characters that a number may go on with. -/
def continuesNumber (c : Char) : Bool :=
  c.isDigit || c = '.' || c = 'e' || c = 'E'

theorem ends_number {rest : List Char} (ends : Ends continuesNumber rest) :
    Ends Char.isDigit rest ∧ Ends (· = '.') rest := by
  constructor
  all_goals
    intro c isHead
    have none := ends c isHead
    simp only [continuesNumber, Bool.or_eq_false_iff] at none
  · exact none.1.1.1
  · exact none.1.1.2

theorem digits_run {run rest : List Char} (nonempty : run ≠ []) (areDigits : ∀ c ∈ run, c.isDigit = true)
    (ends : Ends Char.isDigit rest) : digits (run ++ rest) = .ok (run, rest) := by
  obtain ⟨took, left⟩ := run_append areDigits ends
  unfold digits
  rw [took, left]
  cases run with
  | nil => contradiction
  | cons => rfl

theorem wholeDigits_run {run rest : List Char} (nonempty : run ≠ []) (areDigits : ∀ c ∈ run, c.isDigit = true)
    (noZero : run.head? = some '0' → run = ['0']) (ends : Ends Char.isDigit rest) :
    wholeDigits (run ++ rest) = .ok (run, rest) := by
  unfold wholeDigits
  rw [digits_run nonempty areDigits ends]
  split
  · next second others rest isRun =>
    have zeroRun : run = '0' :: second :: others := congrArg Prod.fst (Except.ok.inj isRun)
    rw [zeroRun] at noZero
    exact absurd (noZero rfl) (by simp)
  · rfl

theorem fractionDigits_chars {fraction : Option (List Char)} {rest : List Char}
    (strict : ∀ run ∈ fraction, run ≠ [] ∧ ∀ c ∈ run, c.isDigit = true) (ends : Ends Char.isDigit rest)
    (noPoint : Ends (· = '.') rest) :
    fractionDigits (Numeral.fractionChars fraction ++ rest) = .ok (fraction, rest) := by
  cases fraction with
  | none =>
    unfold fractionDigits Numeral.fractionChars
    split
    · next starts =>
      rw [List.nil_append] at starts
      simp [starts] at noPoint
    · rfl
  | some run =>
    obtain ⟨nonempty, areDigits⟩ := strict run rfl
    show (digits (run ++ rest)).map _ = _
    rw [digits_run nonempty areDigits ends]
    rfl

theorem exponentPart_chars {exponent : Option ℤ} {rest : List Char} (ends : Ends continuesNumber rest) :
    exponentPart (Numeral.exponentChars exponent ++ rest) = .ok (exponent, rest) := by
  cases exponent with
  | none =>
    cases rest with
    | nil => rfl
    | cons mark rest =>
      have noMark : ¬(mark = 'e' ∨ mark = 'E') := by
        simp only [ends_cons, continuesNumber, Bool.or_eq_false_iff, decide_eq_false_iff_not] at ends
        exact not_or.mpr ⟨ends.1.2, ends.2⟩
      show (if mark = 'e' ∨ mark = 'E' then _ else _) = _
      rw [if_neg noMark]
  | some exponent =>
    have run := digits_run Number.digitChars_ne_nil (@Number.digitChars_digits exponent.natAbs) (ends_number ends).1
    have value := Number.digitsValue_digitChars exponent.natAbs
    show exponentPart ('e' :: (if exponent < 0 then '-' else '+') :: (Number.digitChars exponent.natAbs ++ rest)) = _
    by_cases negative : exponent < 0
    · rw [if_pos negative]
      simp only [exponentPart, Number.splitSign, true_or, if_true, run, Except.map, value]
      rw [Int.ofNat_natAbs_of_nonpos negative.le, neg_neg]
    · rw [if_neg negative]
      simp only [exponentPart, Number.splitSign, true_or, if_true, run, Except.map, value]
      rw [Int.natAbs_of_nonneg (not_lt.mp negative)]
      rfl

theorem ends_exponentChars {inClass : Char → Bool} {exponent : Option ℤ} {rest : List Char}
    (notMark : inClass 'e' = false) (ends : Ends inClass rest) :
    Ends inClass (Numeral.exponentChars exponent ++ rest) := by
  cases exponent with
  | none => exact ends
  | some exponent => exact (ends_cons inClass 'e' _).mpr notMark

theorem ends_fractionChars {inClass : Char → Bool} {fraction : Option (List Char)} {rest : List Char}
    (notPoint : inClass '.' = false) (ends : Ends inClass rest) :
    Ends inClass (Numeral.fractionChars fraction ++ rest) := by
  cases fraction with
  | none => exact ends
  | some run => exact (ends_cons inClass '.' _).mpr notPoint

/-- A numeral is read to its end. -/
theorem unsignedNumber_numeral {negative : Bool} {numeral : Numeral} {rest : List Char} {meaning : Json}
    (strict : numeral.IsStrict) (ends : Ends continuesNumber rest)
    (means : numberValue negative numeral.whole numeral.fraction numeral.exponent = some meaning) :
    unsignedNumber false negative (numeral.chars ++ rest) = .ok (meaning, rest) := by
  obtain ⟨noDigit, noPoint⟩ := ends_number ends
  have exponentNoDigit := @ends_exponentChars Char.isDigit numeral.exponent rest (by decide) noDigit
  have exponentNoPoint := @ends_exponentChars (· = '.') numeral.exponent rest (by decide) noPoint
  have fractionNoDigit := @ends_fractionChars Char.isDigit numeral.fraction _ (by decide) exponentNoDigit
  have whole := wholeDigits_run strict.nonempty strict.areDigits strict.noZero fractionNoDigit
  have fraction := fractionDigits_chars strict.fraction exponentNoDigit exponentNoPoint
  have exponent := @exponentPart_chars numeral.exponent rest ends
  have apart : numeral.chars ++ rest = numeral.whole ++
      (Numeral.fractionChars numeral.fraction ++ (Numeral.exponentChars numeral.exponent ++ rest)) := by
    simp [Numeral.chars]
  rw [apart, unsignedNumber, whole]
  show ((fractionDigits _).bind _) = _
  rw [fraction]
  show ((exponentPart _).bind _) = _
  rw [exponent]
  simp only [Except.bind, Bool.false_eq_true, if_false, means]

/-- A sign in front of a numeral says whether the number is negative. -/
theorem number_signed {negative : Bool} {numeral : Numeral} (strict : numeral.IsStrict) (rest : List Char) :
    number false (Number.signed negative numeral.chars ++ rest) =
      unsignedNumber false negative (numeral.chars ++ rest) := by
  cases negative with
  | true => rfl
  | false =>
    show number false (numeral.chars ++ rest) = _
    obtain ⟨head, tail, isCons, digit⟩ := strict.head
    unfold number
    split
    · next starts =>
      rw [isCons] at starts
      rw [(List.cons.inj starts).1] at digit
      exact absurd digit (by decide)
    · rfl

/-- A number starts with a sign or a digit. -/
theorem signed_head (negative : Bool) {numeral : Numeral} (strict : numeral.IsStrict) :
    ∃ head tail, Number.signed negative numeral.chars = head :: tail ∧ (head = '-' ∨ head.isDigit = true) := by
  cases negative with
  | true => exact ⟨'-', _, rfl, .inl rfl⟩
  | false =>
    obtain ⟨head, tail, isCons, digit⟩ := strict.head
    exact ⟨head, tail, isCons, .inr digit⟩

/-- A whole number is read from its digits if it has 64 bits, with or without a sign. -/
def Is64Bit (n : ℤ) : Prop :=
  Int64.minValue.toInt ≤ n ∧ n < UInt64.size

theorem intChars_numeral (n : ℤ) : Numeral.IsStrict ⟨Number.digitChars n.natAbs, none, none⟩ ∧
    intChars n = Number.signed (n < 0) (Numeral.chars ⟨Number.digitChars n.natAbs, none, none⟩) := by
  constructor
  · refine ⟨Number.digitChars_ne_nil, Number.digitChars_digits, ?_, by simp⟩
    intro isZero
    by_cases zero : n.natAbs = 0
    · rw [zero]
      rfl
    · exact absurd isZero (Number.digitChars_head zero)
  · simp [intChars, Numeral.chars, Numeral.fractionChars, Numeral.exponentChars]

theorem number_intChars {n : ℤ} (fits : Is64Bit n) {rest : List Char} (ends : Ends continuesNumber rest) :
    number false (intChars n ++ rest) = .ok (.int n, rest) := by
  obtain ⟨strict, isChars⟩ := intChars_numeral n
  rw [isChars, number_signed strict]
  apply unsignedNumber_numeral strict ends
  have magnitude := Number.digitsValue_digitChars n.natAbs
  have value : (if decide (n < 0) = true then -(n.natAbs : ℤ) else n.natAbs) = n := by
    simp only [decide_eq_true_eq]
    omega
  have notNegativeZero : (decide (n < 0) && (n.natAbs : ℤ) == 0) = false := by
    by_cases negative : n < 0
    · simp [negative.ne]
    · simp [negative]
  unfold numberValue
  simp only [magnitude, value, notNegativeZero]
  exact if_pos ⟨rfl, fits⟩

theorem number_documentChars {x : Float} (finite : x.isFinite = true) {rest : List Char}
    (ends : Ends continuesNumber rest) : number false (Number.documentChars x ++ rest) = .ok (.float x, rest) := by
  obtain ⟨numeral, layout⟩ := Number.documentMagnitude_layout finite
  have ofX := Number.magnitude finite
  rw [Number.documentChars, if_pos finite, ← layout.written, number_signed layout.strict]
  apply unsignedNumber_numeral layout.strict ends
  have notWhole : (numeral.fraction.isNone && numeral.exponent.isNone &&
      !(Number.isNegative x && (Number.digitsValue numeral.whole : ℤ) == 0)) = false := by
    rw [layout.notWhole, Bool.false_and]
  have double : Number.ofParts numeral.whole (numeral.fraction.getD []) (numeral.exponent.getD 0) = x.abs :=
    layout.names
  unfold numberValue
  simp only [notWhole, double, ofX.finite, if_true, ofX.signed]
  rfl

/-! ### Strings -/

section Strings

variable {chars rest more : List Char} {c : Char}

theorem taken_stringTail_plain (starts : chars = c :: rest) (notQuote : c ≠ '"') (notEscape : c ≠ '\\')
    (printed : ¬ c.toNat < 0x20) :
    taken (stringTail false chars) = (taken (stringTail false rest)).map fun (text, left) => (c :: text, left) := by
  rw [stringTail.eq_def false chars]
  split
  · contradiction
  · next isQuote => exact absurd (List.cons.inj starts).1.symm notQuote
  · next isEscape => exact absurd (List.cons.inj starts).1.symm notEscape
  · next first others _ _ =>
    obtain ⟨rfl, rfl⟩ := List.cons.inj starts
    rw [if_neg printed]
    split
    · next failed => rw [failed]; rfl
    · next isRead => rw [isRead]; rfl

theorem taken_stringTail_escape (starts : chars = '\\' :: rest) (escapes : taken (escape false rest) = some (c, more)) :
    taken (stringTail false chars) = (taken (stringTail false more)).map fun (text, left) => (c :: text, left) := by
  rw [stringTail.eq_def false chars]
  split
  · contradiction
  · next isQuote => exact absurd (List.cons.inj starts).1 (by decide)
  · next others =>
    obtain rfl := (List.cons.inj starts).2
    split
    · next failed =>
      rw [failed] at escapes
      contradiction
    · next isEscape =>
      rw [isEscape] at escapes
      obtain ⟨rfl, rfl⟩ := Prod.mk.inj (Option.some.inj escapes)
      split
      · next failed => rw [failed]; rfl
      · next isRead => rw [isRead]; rfl
  · next notEscape => exact absurd (List.cons.inj starts).1 notEscape

theorem hexValue?_hexDigit {digit : ℕ} (short : digit < 16) : hexValue? (hexDigit digit) = some digit := by
  have checked : ∀ digit : Fin 16, hexValue? (hexDigit digit) = some digit.val := by decide
  exact checked ⟨digit, short⟩

theorem taken_escape_control (control : c.toNat < 0x20) :
    taken (escape false ('u' :: '0' :: '0' :: hexDigit (c.toNat / 16) :: hexDigit (c.toNat % 16) :: more)) =
      some (c, more) := by
  have high := @hexValue?_hexDigit (c.toNat / 16) (by omega)
  have low := @hexValue?_hexDigit (c.toNat % 16) (by omega)
  have zero : hexValue? '0' = some 0 := rfl
  have value : ((0 * 16 + 0) * 16 + c.toNat / 16) * 16 + c.toNat % 16 = c.toNat := by omega
  simp only [escape, unicodeEscape, codeUnit, high, low, zero, value]
  rw [if_neg (by decide), if_neg (by omega), if_neg (by omega), Char.ofNat_toNat]
  rfl

theorem taken_stringTail_escapedChar :
    taken (stringTail false (escapedChar c ++ rest)) =
      (taken (stringTail false rest)).map fun (text, left) => (c :: text, left) := by
  have anyForm : ∀ written, written = escapedChar c → taken (stringTail false (written ++ rest)) =
      (taken (stringTail false rest)).map fun (text, left) => (c :: text, left) := by
    intro written isWritten
    unfold escapedChar at isWritten
    split_ifs at isWritten with quote backslash lineFeed tab carriageReturn backspace formFeed control
    all_goals subst written
    · exact taken_stringTail_escape rfl (by rw [quote]; rfl)
    · exact taken_stringTail_escape rfl (by rw [backslash]; rfl)
    · exact taken_stringTail_escape rfl (by rw [lineFeed]; rfl)
    · exact taken_stringTail_escape rfl (by rw [tab]; rfl)
    · exact taken_stringTail_escape rfl (by rw [carriageReturn]; rfl)
    · exact taken_stringTail_escape rfl (by rw [backspace]; rfl)
    · exact taken_stringTail_escape rfl (by rw [formFeed]; rfl)
    · exact taken_stringTail_escape rfl (taken_escape_control control)
    · exact taken_stringTail_plain rfl quote backslash control
  exact anyForm _ rfl

/-- What stands between the quotes of a written string is read as the string. -/
theorem taken_stringTail (text rest : List Char) :
    taken (stringTail false (text.flatMap escapedChar ++ '"' :: rest)) = some (text, rest) := by
  induction text with
  | nil => rw [List.flatMap_nil, List.nil_append, stringTail.eq_def]; rfl
  | cons c text inductionHypothesis =>
    rw [List.flatMap_cons, List.append_assoc, taken_stringTail_escapedChar, inductionHypothesis]
    rfl

end Strings

/-! ### Values that are no containers -/

section Values

variable {reading : Reading} {chars tail rest : List Char}

theorem taken_value_word {head : Char} {letters : List Char} {meaning : Json}
    (isWord : (head, letters, meaning) ∈ [('n', ['u', 'l', 'l'], null), ('t', ['r', 'u', 'e'], bool true),
      ('f', ['a', 'l', 's', 'e'], bool false)])
    (starts : skipSpaces chars = head :: (letters ++ rest)) : taken (value reading chars) = some (meaning, rest) := by
  have word : ∀ letters : List Char, keyword letters (letters ++ rest) = .ok rest := by
    intro letters
    induction letters with
    | nil => rfl
    | cons letter letters inductionHypothesis => simp [keyword, inductionHypothesis]
  rw [value]
  split
  · next none => rw [none] at starts; contradiction
  · next first behind isCons =>
    obtain ⟨rfl, rfl⟩ := List.cons.inj (isCons.symm.trans starts)
    simp only [List.mem_cons, Prod.mk.injEq, List.not_mem_nil, or_false] at isWord
    rcases isWord with ⟨rfl, rfl, rfl⟩ | ⟨rfl, rfl, rfl⟩ | ⟨rfl, rfl, rfl⟩
    all_goals
      simp only [Char.reduceEq, if_true, if_false]
      split
      · next isRest =>
        obtain rfl := Except.ok.inj (isRest.symm.trans (word _))
        rfl
      · next failed => rw [word] at failed; contradiction

theorem taken_value_string {text : List Char} (notSkim : reading.isSkim = false)
    (starts : skipSpaces chars = '"' :: tail) (isText : taken (stringTail false tail) = some (text, rest)) :
    taken (value reading chars) = some (.string (String.ofList text), rest) := by
  rw [value]
  split
  · next none => rw [none] at starts; contradiction
  · next first behind isCons =>
    obtain ⟨rfl, rfl⟩ := List.cons.inj (isCons.symm.trans starts)
    simp only [Char.reduceEq, if_true, if_false]
    rw [notSkim]
    split
    · next isRead =>
      rw [isRead] at isText
      obtain ⟨rfl, rfl⟩ := Prod.mk.inj (Option.some.inj isText)
      rfl
    · next failed => rw [failed] at isText; contradiction

theorem taken_value_number {head : Char} {meaning : Json} (notSkim : reading.isSkim = false)
    (starts : skipSpaces chars = head :: tail) (isHead : head = '-' ∨ head.isDigit = true)
    (isNumber : number false (head :: tail) = .ok (meaning, rest)) :
    taken (value reading chars) = some (meaning, rest) := by
  have notOther : ∀ other : Char, other ∈ ['n', 't', 'f', '"', '[', '\x7b'] → head ≠ other := by
    rintro other isOther rfl
    simp only [List.mem_cons, List.not_mem_nil, or_false] at isOther
    rcases isOther with rfl | rfl | rfl | rfl | rfl | rfl <;> revert isHead <;> decide
  rw [value]
  split
  · next none => rw [none] at starts; contradiction
  · next first behind isCons =>
    obtain ⟨rfl, rfl⟩ := List.cons.inj (isCons.symm.trans starts)
    rw [if_neg (notOther _ (by simp)), if_neg (notOther _ (by simp)), if_neg (notOther _ (by simp)),
      if_neg (notOther _ (by simp)), if_neg (notOther _ (by simp)), if_neg (notOther _ (by simp)), if_pos isHead]
    split
    · next isRead =>
      rw [notSkim] at isRead
      obtain ⟨rfl, rfl⟩ := Prod.mk.inj (Except.ok.inj (isRead.symm.trans isNumber))
      rfl
    · next failed =>
      rw [notSkim, isNumber] at failed
      contradiction

end Values

end TradingStrategy.Json

import TradingStrategy.Number.Notation
import TradingStrategy.Number.Reader
import TradingStrategy.Proofs.Number.Reading

/-!
Plain notation is read back.

Owns:
- the values of written digits, also with zeros on either side;
- `plainChars_parts`: a finite double without a sign is written as digits with at most one point between them, and
  these are read as that double.
-/

namespace TradingStrategy.Number

/-! ### Digits -/

theorem digitsValue_digitChars (n : ℕ) : digitsValue (digitChars n) = n := by
  show Nat.ofDigitChars 10 (Nat.toDigits 10 n) 0 = n
  exact Nat.ofDigitChars_toDigits (by decide) (by decide)

theorem digitChars_digits {n : ℕ} : ∀ c ∈ digitChars n, c.isDigit = true :=
  fun _ member => Nat.isDigit_of_mem_toDigits (by decide) (by decide) member

theorem digitChars_ne_nil {n : ℕ} : digitChars n ≠ [] :=
  Nat.toDigits_ne_nil

theorem zeros_digits {count : ℕ} : ∀ c ∈ zeros count, c.isDigit = true := by
  intro c member
  rw [List.eq_of_mem_replicate member]
  decide

theorem digitsValue_append_zeros (digits : List Char) (count : ℕ) :
    digitsValue (digits ++ zeros count) = digitsValue digits * 10 ^ count := by
  induction count with
  | zero => simp [zeros]
  | succ count inductionHypothesis =>
    have last : digits ++ zeros (count + 1) = (digits ++ zeros count) ++ ['0'] := by
      rw [zeros, List.replicate_succ', ← List.append_assoc]
      rfl
    have appended : digitsValue ((digits ++ zeros count) ++ ['0']) = 10 * digitsValue (digits ++ zeros count) := by
      rw [digitsValue, List.foldl_append]
      rfl
    rw [last, appended, inductionHypothesis, pow_succ]
    ring

theorem digitsValue_zeros_append (count : ℕ) (digits : List Char) :
    digitsValue (zeros count ++ digits) = digitsValue digits := by
  have nothing := digitsValue_append_zeros [] count
  rw [List.nil_append] at nothing
  have start : (zeros count).foldl (fun value c => 10 * value + digitValue c) 0 = 0 := by
    show digitsValue (zeros count) = 0
    rw [nothing]
    exact Nat.zero_mul _
  rw [digitsValue, List.foldl_append, start]
  rfl

/-! ### Positional notation -/

/-- Digits with at most one point, which stands between digits, and what they are read as. -/
structure Parts (chars whole fraction : List Char) (x : Float) : Prop where
  written : chars = whole ++ if fraction = [] then [] else '.' :: fraction
  nonempty : whole ≠ []
  areDigits : ∀ c ∈ whole ++ fraction, c.isDigit = true
  reads : ofParts whole fraction 0 = x

section Positional

variable {n : ℕ} {exponent : ℤ}

theorem whole_parts (nonneg : 0 ≤ exponent) :
    Parts (digitChars n ++ zeros exponent.toNat) (digitChars n ++ zeros exponent.toNat) []
      (Decimal.mk n exponent).toFloat where
  written := by simp
  nonempty := by simp [digitChars_ne_nil]
  areDigits := by
    intro c member
    rcases List.mem_append.mp (by simpa using member) with digit | zero
    · exact digitChars_digits c digit
    · exact zeros_digits c zero
  reads := by
    apply Decimal.toFloat_congr
    show ((digitsValue (digitChars n ++ zeros exponent.toNat ++ []) : ℕ) : ℚ) * 10 ^ ((0 : ℤ) - (0 : ℕ)) =
      n * 10 ^ exponent
    rw [List.append_nil, digitsValue_append_zeros, digitsValue_digitChars]
    push_cast
    rw [← zpow_natCast, Int.toNat_of_nonneg nonneg, mul_one]

/-- Digits in front of the point and behind it that have the value of the decimal's digits are read as the decimal. -/
theorem pointed_parts {whole fraction : List Char} (nonempty : whole ≠ []) (nonemptyFraction : fraction ≠ [])
    (areDigits : ∀ c ∈ whole ++ fraction, c.isDigit = true) (isValue : digitsValue (whole ++ fraction) = n)
    (places : (fraction.length : ℤ) = -exponent) :
    Parts (whole ++ '.' :: fraction) whole fraction (Decimal.mk n exponent).toFloat where
  written := by rw [if_neg nonemptyFraction]
  nonempty := nonempty
  areDigits := areDigits
  reads := by rw [ofParts, isValue, places, zero_sub, neg_neg]

theorem inside_parts (negative : exponent < 0) (inside : (-exponent).toNat < (digitChars n).length) :
    Parts ((digitChars n).take ((digitChars n).length - (-exponent).toNat) ++
        '.' :: (digitChars n).drop ((digitChars n).length - (-exponent).toNat))
      ((digitChars n).take ((digitChars n).length - (-exponent).toNat))
      ((digitChars n).drop ((digitChars n).length - (-exponent).toNat)) (Decimal.mk n exponent).toFloat := by
  generalize isPlace : (digitChars n).length - (-exponent).toNat = place
  have wholeLength : ((digitChars n).take place).length = place := by
    rw [List.length_take]
    omega
  have length : ((digitChars n).drop place).length = (-exponent).toNat := by
    rw [List.length_drop]
    omega
  refine pointed_parts (List.ne_nil_of_length_pos (by omega)) (List.ne_nil_of_length_pos (by omega)) ?_ ?_ ?_
  · rw [List.take_append_drop]
    exact digitChars_digits
  · rw [List.take_append_drop, digitsValue_digitChars]
  · omega

theorem outside_parts (negative : exponent < 0) (outside : (digitChars n).length ≤ (-exponent).toNat) :
    Parts ('0' :: '.' :: zeros ((-exponent).toNat - (digitChars n).length) ++ digitChars n) ['0']
      (zeros ((-exponent).toNat - (digitChars n).length) ++ digitChars n) (Decimal.mk n exponent).toFloat := by
  have length : (zeros ((-exponent).toNat - (digitChars n).length) ++ digitChars n).length = (-exponent).toNat := by
    rw [List.length_append, zeros, List.length_replicate]
    omega
  have areDigits : ∀ c ∈ ['0'] ++ (zeros ((-exponent).toNat - (digitChars n).length) ++ digitChars n),
      c.isDigit = true := by
    intro c member
    rcases List.mem_append.mp member with zero | member
    · exact @zeros_digits 1 c zero
    · exact (List.mem_append.mp member).elim (zeros_digits c) (digitChars_digits c)
  have isValue : digitsValue (['0'] ++ (zeros ((-exponent).toNat - (digitChars n).length) ++ digitChars n)) = n := by
    show digitsValue (zeros 1 ++ (zeros _ ++ digitChars n)) = n
    rw [digitsValue_zeros_append, digitsValue_zeros_append, digitsValue_digitChars]
  exact pointed_parts (by simp) (List.ne_nil_of_length_pos (by omega)) areDigits isValue (by omega)

end Positional

theorem positional_parts (d : Decimal) : ∃ whole fraction, Parts (positional d) whole fraction d.toFloat := by
  unfold positional
  simp only
  split
  · next nonneg => exact ⟨_, _, whole_parts nonneg⟩
  · next negative =>
    split
    · next inside => exact ⟨_, _, inside_parts (by omega) inside⟩
    · next outside => exact ⟨_, _, outside_parts (by omega) (by omega)⟩

/-- A finite double without a sign is read from its plain notation. -/
theorem plainChars_parts {x : Float} (finite : x.isFinite = true) (notNegative : isNegative x = false) :
    ∃ whole fraction, Parts (plainChars x) whole fraction x := by
  have plain : plainChars x = positional (Decimal.shortest .up x) := by
    have isFinite : x.toModel.unpack.isFinite = true := finite
    have isNumber : x.isNaN = false := by
      show x.toModel.unpack.isNaN = false
      cases unpacked : x.toModel.unpack with
      | notANumber =>
        rw [unpacked] at isFinite
        contradiction
      | infinity | zero | finite => rfl
    have bounded : x.isInf = false := by
      show x.toModel.unpack.isInf = false
      cases unpacked : x.toModel.unpack with
      | infinity =>
        rw [unpacked] at isFinite
        contradiction
      | notANumber | zero | finite => rfl
    rw [plainChars, isNumber, bounded, notNegative]
    rfl
  obtain ⟨whole, fraction, parts⟩ := positional_parts (Decimal.shortest .up x)
  rw [Decimal.toFloat_shortest .up finite notNegative, ← plain] at parts
  exact ⟨whole, fraction, parts⟩

end TradingStrategy.Number

import TradingStrategy.Proofs.Number.Plain

/-!
Document notation names its double.

Owns:
- the magnitude and the sign of a finite double, and that the shortest decimal names the magnitude;
- `Numeral`: digits, a fraction and an exponent, as JSON has them, and the double that they name;
- `documentMagnitude_layout`: a finite double is written as a numeral that is no whole number and names its magnitude.
-/

namespace TradingStrategy.Number

open Float.Model.UnpackedFloat (unpack)

/-! ### Magnitudes -/

/-- The magnitude of a finite double is a finite double without a sign; with the sign of the double it is the double,
and it is written with the same digits. -/
structure Magnitude (x : Float) : Prop where
  finite : x.abs.isFinite = true
  notNegative : isNegative x.abs = false
  signed : (if isNegative x then -x.abs else x.abs) = x
  shortest : ∀ tie, Decimal.shortest tie x.abs = Decimal.shortest tie x

theorem magnitude {x : Float} (finite : x.isFinite = true) : Magnitude x := by
  have isFinite : x.toModel.unpack.isFinite = true := finite
  cases unpacked : x.toModel.unpack with
  | notANumber | infinity =>
    rw [unpacked] at isFinite
    contradiction
  | zero sign =>
    have same := float_of_unpack_zero unpacked
    cases sign with
    | positive =>
      obtain rfl : x = 0.0 := same.trans (by decide)
      exact ⟨by decide, by decide, by decide, fun _ => rfl⟩
    | negative =>
      obtain rfl : x = -0.0 := same.trans (by decide)
      exact ⟨by decide, by decide, by decide, fun _ => rfl⟩
  | finite sign significand exponent positive =>
    have canonical := (unpack_finite unpacked).1
    have isAbs : x.abs = ⟨Float.Model.pack (.finite .positive significand exponent positive)⟩ := by
      show Float.ofModel (Float.Model.pack x.toModel.unpack.abs) = _
      rw [unpacked]
      rfl
    have absUnpacked : x.abs.toModel.unpack = .finite .positive significand exponent positive := by
      rw [isAbs]
      exact unpack_pack canonical
    have absAbs : x.abs.abs = x.abs := by
      show Float.ofModel (Float.Model.pack x.abs.toModel.unpack.abs) = x.abs
      rw [absUnpacked, isAbs]
      rfl
    have isX := float_of_unpack unpacked
    refine ⟨?_, ?_, ?_, ?_⟩
    · show x.abs.toModel.unpack.isFinite = true
      rw [absUnpacked]
      rfl
    · rw [Bool.eq_false_iff, ne_eq, isNegative_of_unpack absUnpacked]
      simp
    · cases sign with
      | positive =>
        rw [if_neg fun negative => absurd ((isNegative_of_unpack unpacked).mp negative) (by simp), isAbs]
        exact isX.symm
      | negative =>
        rw [if_pos ((isNegative_of_unpack unpacked).mpr rfl)]
        show Float.ofModel (Float.Model.pack x.abs.toModel.unpack.neg) = x
        rw [absUnpacked]
        exact isX.symm
    · intro tie
      unfold Decimal.shortest
      rw [beq_zero_of_unpack unpacked, beq_zero_of_unpack absUnpacked, absAbs]

theorem neg_finite {x : Float} (finite : x.isFinite = true) : (-x).isFinite = true := by
  have isFinite : x.toModel.unpack.isFinite = true := finite
  cases unpacked : x.toModel.unpack with
  | notANumber | infinity =>
    rw [unpacked] at isFinite
    contradiction
  | zero sign =>
    have same := float_of_unpack_zero unpacked
    cases sign with
    | positive => rw [show x = 0.0 from same.trans (by decide)]; decide
    | negative => rw [show x = -0.0 from same.trans (by decide)]; decide
  | finite sign significand exponent positive =>
    have canonical := (unpack_finite unpacked).1
    obtain ⟨opposite, isNeg⟩ : ∃ opposite,
        -x = ⟨Float.Model.pack (.finite opposite significand exponent positive)⟩ := by
      show ∃ opposite, Float.ofModel (Float.Model.pack x.toModel.unpack.neg) = _
      rw [unpacked]
      exact ⟨_, rfl⟩
    have negUnpacked : (-x).toModel.unpack = .finite opposite significand exponent positive := by
      rw [isNeg]
      exact unpack_pack canonical
    show (-x).toModel.unpack.isFinite = true
    rw [negUnpacked]
    rfl

/-- The shortest decimal names the magnitude. -/
theorem toFloat_shortest_abs (tie : Tie) {x : Float} (finite : x.isFinite = true) :
    (Decimal.shortest tie x).toFloat = x.abs := by
  have ofX := magnitude finite
  rw [← ofX.shortest tie]
  exact Decimal.toFloat_shortest tie ofX.finite ofX.notNegative

/-- Only zeros are written without another digit. -/
theorem shortest_of_digits_zero {tie : Tie} {x : Float} (finite : x.isFinite = true)
    (zero : (Decimal.shortest tie x).digits = 0) : Decimal.shortest tie x = ⟨0, 0⟩ := by
  have isZero : x.abs = 0.0 := by
    rw [← toFloat_shortest_abs tie finite]
    generalize Decimal.shortest tie x = d at zero
    obtain ⟨digits, exponent⟩ := d
    subst zero
    exact Decimal.toFloat_zero exponent
  rw [← (magnitude finite).shortest tie, isZero]
  rfl

/-! ### Numerals -/

/-- A number as JSON has it, without its sign: the digits in front of the point, those behind it, and an exponent of
ten. -/
structure Numeral where
  whole : List Char
  fraction : Option (List Char)
  exponent : Option ℤ

namespace Numeral

/-- The characters of a fraction, with its point. -/
def fractionChars : Option (List Char) → List Char
  | some digits => '.' :: digits
  | none => []

/-- The characters of an exponent, always with a sign. -/
def exponentChars : Option ℤ → List Char
  | some exponent => 'e' :: (if exponent < 0 then '-' else '+') :: digitChars exponent.natAbs
  | none => []

def chars (numeral : Numeral) : List Char :=
  numeral.whole ++ (fractionChars numeral.fraction ++ exponentChars numeral.exponent)

/-- The double that the numeral names. -/
def toFloat (numeral : Numeral) : Float :=
  ofParts numeral.whole (numeral.fraction.getD []) (numeral.exponent.getD 0)

/-- No digits are missing, and no zero stands in front of other digits. -/
structure IsStrict (numeral : Numeral) : Prop where
  nonempty : numeral.whole ≠ []
  areDigits : ∀ c ∈ numeral.whole, c.isDigit = true
  noZero : numeral.whole.head? = some '0' → numeral.whole = ['0']
  fraction : ∀ digits ∈ numeral.fraction, digits ≠ [] ∧ ∀ c ∈ digits, c.isDigit = true

theorem IsStrict.head {numeral : Numeral} (strict : numeral.IsStrict) :
    ∃ head tail, numeral.chars = head :: tail ∧ head.isDigit = true := by
  obtain ⟨head, others, isWhole⟩ := List.exists_cons_of_ne_nil strict.nonempty
  refine ⟨head, others ++ (fractionChars numeral.fraction ++ exponentChars numeral.exponent), ?_, ?_⟩
  · rw [chars, isWhole]
    rfl
  · exact strict.areDigits head (by rw [isWhole]; exact List.mem_cons_self)

end Numeral

theorem digitChars_head {n : ℕ} (nonzero : n ≠ 0) : (digitChars n).head? ≠ some '0' := by
  induction n using Nat.strong_induction_on with
  | h n inductionHypothesis =>
    by_cases short : n < 10
    · rw [digitChars, Nat.toDigits_of_lt_base short]
      have digit : ∀ digit : Fin 10, digit.val ≠ 0 → Nat.digitChar digit.val ≠ '0' := by decide
      simpa using digit ⟨n, short⟩ nonzero
    · have split : digitChars n = digitChars (n / 10) ++ [(n % 10).digitChar] :=
        Nat.toDigits_of_base_le (by decide) (by omega)
      have others := inductionHypothesis (n / 10) (by omega) (by omega)
      rw [split, List.head?_append_of_ne_nil _ digitChars_ne_nil]
      exact others

/-- Where only the zero without exponent is zero, digits have no zero in front, also with the zeros of an exponent
behind them. -/
theorem digitChars_noZero {d : Decimal} (zero : d.digits = 0 → d = ⟨0, 0⟩) {more : List Char}
    (none : d.exponent = 0 → more = []) (isZero : (digitChars d.digits ++ more).head? = some '0') :
    digitChars d.digits ++ more = ['0'] := by
  rw [List.head?_append_of_ne_nil _ digitChars_ne_nil] at isZero
  by_cases nothing : d.digits = 0
  · rw [nothing, none (congrArg Decimal.exponent (zero nothing))]
    rfl
  · exact absurd isZero (digitChars_head nothing)

/-! ### Layouts -/

/-- Characters are a numeral that is no whole number, and a double is what it names. -/
structure Layout (chars : List Char) (x : Float) (numeral : Numeral) : Prop where
  strict : numeral.IsStrict
  written : numeral.chars = chars
  notWhole : (numeral.fraction.isNone && numeral.exponent.isNone) = false
  names : numeral.toFloat = x

section Layouts

variable {d : Decimal} (zero : d.digits = 0 → d = ⟨0, 0⟩)

include zero

theorem layout_whole (nonneg : 0 ≤ d.exponent) :
    Layout (digitChars d.digits ++ zeros d.exponent.toNat ++ ['.', '0']) d.toFloat
      ⟨digitChars d.digits ++ zeros d.exponent.toNat, some ['0'], none⟩ where
  strict := {
    nonempty := by simp [digitChars_ne_nil]
    areDigits := by
      intro c member
      exact (List.mem_append.mp member).elim (digitChars_digits c) (zeros_digits c)
    noZero := digitChars_noZero zero fun none => by rw [none]; rfl
    fraction := by simp }
  written := by simp [Numeral.chars, Numeral.fractionChars, Numeral.exponentChars]
  notWhole := rfl
  names := by
    apply Decimal.toFloat_congr
    show ((digitsValue (digitChars d.digits ++ zeros d.exponent.toNat ++ zeros 1) : ℕ) : ℚ) * 10 ^ ((0 : ℤ) - (1 : ℕ)) =
      d.digits * 10 ^ d.exponent
    rw [digitsValue_append_zeros, digitsValue_append_zeros, digitsValue_digitChars]
    push_cast
    rw [← zpow_natCast, Int.toNat_of_nonneg nonneg, zpow_neg_one]
    ring

omit zero in
/-- Digits on either side of a point. -/
theorem Parts.layout {chars whole fraction : List Char} {x : Float} (parts : Parts chars whole fraction x)
    (noZero : whole.head? = some '0' → whole = ['0']) (nonempty : fraction ≠ []) :
    Layout chars x ⟨whole, some fraction, none⟩ where
  strict := {
    nonempty := parts.nonempty
    areDigits := fun c member => parts.areDigits c (List.mem_append_left _ member)
    noZero := noZero
    fraction := by
      rintro digits ⟨rfl⟩
      exact ⟨nonempty, fun c member => parts.areDigits c (List.mem_append_right _ member)⟩ }
  written := by
    rw [parts.written, if_neg nonempty]
    simp [Numeral.chars, Numeral.fractionChars, Numeral.exponentChars]
  notWhole := rfl
  names := parts.reads

theorem layout_pointed (negative : d.exponent < 0) : ∃ numeral, Layout (positional d) d.toFloat numeral := by
  have nonzero : d.digits ≠ 0 := by
    intro nothing
    have exponent := congrArg Decimal.exponent (zero nothing)
    exact absurd exponent negative.ne
  unfold positional
  rw [if_neg (by omega)]
  simp only
  split
  · next inside =>
    refine ⟨_, (inside_parts negative inside).layout ?_ ?_⟩
    · intro isZero
      rw [List.head?_take, if_neg (by omega)] at isZero
      exact absurd isZero (digitChars_head nonzero)
    · apply List.ne_nil_of_length_pos
      rw [List.length_drop]
      omega
  · next outside =>
    exact ⟨_, (outside_parts negative (by omega)).layout (fun _ => rfl) (by simp [digitChars_ne_nil])⟩

theorem layout_exponent {leading : ℤ} (isLeading : leading = (digitChars d.digits).length - 1 + d.exponent) :
    ∃ numeral, Layout ((digitChars d.digits).take 1 ++
      (if (digitChars d.digits).length ≤ 1 then [] else '.' :: (digitChars d.digits).drop 1) ++
      'e' :: (if leading < 0 then '-' else '+') :: digitChars leading.natAbs) d.toFloat numeral := by
  have positive : 0 < (digitChars d.digits).length := List.length_pos_iff.mpr digitChars_ne_nil
  have areDigits := @digitChars_digits d.digits
  have noZero := digitChars_noZero zero (fun _ => rfl)
  have isValue := digitsValue_digitChars d.digits
  rw [List.append_nil] at noZero
  generalize digitChars d.digits = digits at *
  have numeralOf : ∀ fraction : Option (List Char), (∀ behind ∈ fraction, behind ≠ []) →
      fraction.getD [] = digits.drop 1 → ∃ numeral, Layout (digits.take 1 ++ Numeral.fractionChars fraction ++
        'e' :: (if leading < 0 then '-' else '+') :: digitChars leading.natAbs) d.toFloat numeral := by
    intro fraction nonempty isFraction
    refine ⟨⟨digits.take 1, fraction, some leading⟩, ?_, ?_, by simp, ?_⟩
    · refine ⟨List.ne_nil_of_length_pos ?_, fun c member => areDigits c (List.mem_of_mem_take member), ?_, ?_⟩
      · rw [List.length_take]
        omega
      · intro isZero
        rw [List.head?_take, if_neg one_ne_zero] at isZero
        rw [noZero isZero]
        rfl
      · rintro behind ⟨rfl⟩
        obtain rfl : behind = digits.drop 1 := isFraction
        exact ⟨nonempty _ rfl, fun c member => areDigits c (List.mem_of_mem_drop member)⟩
    · rw [Numeral.chars, ← List.append_assoc]
      rfl
    · show ofParts (digits.take 1) (fraction.getD []) leading = d.toFloat
      have place : leading - ((digits.drop 1).length : ℤ) = d.exponent := by
        rw [List.length_drop]
        omega
      rw [isFraction, ofParts, List.take_append_drop, isValue, place]
  split
  · next short => exact numeralOf none (by simp) (List.drop_eq_nil_of_le short).symm
  · next long =>
    apply numeralOf (some (digits.drop 1)) _ rfl
    rintro behind ⟨rfl⟩
    apply List.ne_nil_of_length_pos
    rw [List.length_drop]
    omega

end Layouts

/-- A finite double is written as a numeral that names its magnitude. -/
theorem documentMagnitude_layout {x : Float} (finite : x.isFinite = true) :
    ∃ numeral, Layout (documentMagnitude x) x.abs numeral := by
  have zero := @shortest_of_digits_zero .even x finite
  rw [← toFloat_shortest_abs .even finite]
  unfold documentMagnitude
  generalize Decimal.shortest .even x = d at zero
  simp only
  split
  · split
    · next nonneg =>
      rw [positional, if_pos nonneg]
      exact ⟨_, layout_whole zero nonneg⟩
    · next negative => exact layout_pointed zero (by omega)
  · exact layout_exponent zero rfl

end TradingStrategy.Number

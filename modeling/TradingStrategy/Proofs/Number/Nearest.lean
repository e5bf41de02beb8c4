import Mathlib.Data.Int.Log
import Mathlib.Data.Rat.Floor
import Mathlib.Tactic.FieldSimp
import Mathlib.Tactic.Linarith
import Mathlib.Tactic.Ring
import TradingStrategy.Number.Decimal

/-!
The double nearest to a positive number.

Owns:
- rounding of a positive rational number to the nearest double, a half to the even significand;
- that the shifts, roundings, products and quotients of unpacked doubles give exactly that rounding.

Does not own decimals; what follows for them is in `Proofs.Number.Reading`.
-/

namespace TradingStrategy.Number

open Float.Model (Format UnpackedFloat totalExponent)
open Float.Model.UnpackedFloat

/-! ### Rounding -/

/-- The nearest whole number; a half goes to the even one. -/
def roundEven (v : ℚ) : ℕ :=
  if v - ⌊v⌋₊ < 1 / 2 then ⌊v⌋₊ else if v - ⌊v⌋₊ = 1 / 2 then ⌊v⌋₊ + ⌊v⌋₊ % 2 else ⌊v⌋₊ + 1

/-- The power of two that one unit of the significand stands for in the doubles around a positive number. -/
def placeOf (q : ℚ) : ℤ :=
  max (Int.log 2 q - 52) (-1074)

/-- The double nearest to a positive number. A significand that is rounded up to its 54th bit moves to the next place. -/
def nearest (q : ℚ) : UnpackedFloat :=
  if nonzero : roundEven (q / 2 ^ placeOf q) = 0 then .zero .positive
  else if roundEven (q / 2 ^ placeOf q) < 2 ^ 53 then
    .finite .positive (roundEven (q / 2 ^ placeOf q)) (placeOf q) (Nat.pos_of_ne_zero nonzero)
  else .finite .positive (2 ^ 52) (placeOf q + 1) (by decide)

/-! ### Significands with a round bit and a sticky bit -/

/-- What an extended significand stands for: a half for its round bit, and something below a half for its sticky bit. -/
def Represents (extended : ExtendedMantissa) (v : ℚ) : Prop :=
  ∃ tail : ℚ, 0 ≤ tail ∧ tail < 1 / 2 ∧ (extended.stickyBit = false ↔ tail = 0) ∧
    v = extended.mantissa + (if extended.roundBit then 1 / 2 else 0) + tail

theorem represents_exact (significand : ℕ) :
    Represents (.ofMantissaAndAccuracy significand .exact) significand := by
  refine ⟨0, le_refl 0, by norm_num, by simp [ExtendedMantissa.ofMantissaAndAccuracy], ?_⟩
  simp [ExtendedMantissa.ofMantissaAndAccuracy]

/-- A part of a unit below, at or above its half is told apart by the two bits. -/
theorem represents_part {whole part denominator : ℕ} (below : part < denominator) :
    Represents (.ofMantissaAndAccuracy whole (accuracyOfFraction part denominator)) (whole + part / denominator) := by
  have positive : (0 : ℚ) < denominator := by exact_mod_cast Nat.zero_lt_of_lt below
  unfold accuracyOfFraction
  split
  · next none =>
    subst none
    simpa using represents_exact whole
  · next some =>
    have partPositive : (0 : ℚ) < part := by exact_mod_cast Nat.pos_of_ne_zero some
    have partBelow : (part : ℚ) < denominator := by exact_mod_cast below
    rcases lt_trichotomy (2 * part) denominator with lower | half | higher
    · have lower' : 2 * (part : ℚ) < denominator := by exact_mod_cast lower
      rw [compare_lt_iff_lt.mpr lower]
      refine ⟨part / denominator, by positivity, ?_, ?_, by simp [ExtendedMantissa.ofMantissaAndAccuracy]⟩
      · rw [div_lt_iff₀ positive]
        linarith
      · simp [ExtendedMantissa.ofMantissaAndAccuracy, partPositive.ne', positive.ne']
    · rw [compare_eq_iff_eq.mpr half, ← half]
      refine ⟨0, le_refl 0, by norm_num, by simp [ExtendedMantissa.ofMantissaAndAccuracy], ?_⟩
      simp only [ExtendedMantissa.ofMantissaAndAccuracy, if_true]
      push_cast
      field_simp
      ring
    · have higher' : (denominator : ℚ) < 2 * part := by exact_mod_cast higher
      rw [compare_gt_iff_gt.mpr higher]
      refine ⟨part / denominator - 1 / 2, ?_, ?_, ?_, ?_⟩
      · rw [sub_nonneg, le_div_iff₀ positive]
        linarith
      · have lessThanOne := (div_lt_one positive).mpr partBelow
        linarith
      · have above : 1 / 2 < (part : ℚ) / denominator := by
          rw [lt_div_iff₀ positive]
          linarith
        simp only [ExtendedMantissa.ofMantissaAndAccuracy, Bool.true_eq_false, false_iff]
        linarith
      · simp only [ExtendedMantissa.ofMantissaAndAccuracy, if_true]
        ring

/-- A quotient with its remainder stands for the fraction. -/
theorem represents_fraction {numerator denominator : ℕ} (positive : 0 < denominator) :
    Represents (.ofMantissaAndAccuracy (numerator / denominator) (accuracyOfFraction (numerator % denominator) denominator))
      (numerator / denominator) := by
  have split : (numerator : ℚ) / denominator =
      (numerator / denominator : ℕ) + (numerator % denominator : ℕ) / denominator := by
    have whole := Nat.div_add_mod numerator denominator
    have nonzero : (denominator : ℚ) ≠ 0 := by positivity
    rw [div_eq_iff nonzero, add_mul, div_mul_cancel₀ _ nonzero]
    exact_mod_cast (by rw [mul_comm]; exact whole.symm)
  rw [split]
  exact represents_part (Nat.mod_lt numerator positive)

theorem Represents.shiftRightOne {extended : ExtendedMantissa} {v : ℚ} (represents : Represents extended v) :
    Represents extended.shiftRightOne (v / 2) := by
  obtain ⟨significand, round, sticky⟩ := extended
  obtain ⟨tail, nonneg, below, none, rfl⟩ := represents
  have halves : (significand : ℚ) = 2 * (significand / 2 : ℕ) + (significand % 2 : ℕ) := by
    exact_mod_cast (Nat.div_add_mod significand 2).symm
  refine ⟨((if round then 1 / 2 else 0) + tail) / 2, ?_, ?_, ?_, ?_⟩
  · split <;> linarith
  · split <;> linarith
  · have nothing : (round || sticky) = false ↔ round = false ∧ tail = 0 := by simp [none]
    simp only [ExtendedMantissa.shiftRightOne, nothing]
    cases round with
    | false => simp
    | true =>
      simp only [Bool.true_eq_false, false_and, if_true, false_iff]
      linarith
  · rw [halves]
    rcases Nat.mod_two_eq_zero_or_one significand with even | odd
    · simp [ExtendedMantissa.shiftRightOne, even]
      ring
    · simp [ExtendedMantissa.shiftRightOne, odd]
      ring

/-- Shifting to the right divides by a power of two. -/
theorem Represents.shiftRight {extended : ExtendedMantissa} {v : ℚ} (represents : Represents extended v) (count : ℕ) :
    Represents (extended >>> count) (v / 2 ^ count) := by
  show Represents (Nat.repeat ExtendedMantissa.shiftRightOne count extended) _
  induction count with
  | zero => simpa [Nat.repeat] using represents
  | succ count inductionHypothesis =>
    have next := inductionHypothesis.shiftRightOne
    rwa [div_div, ← pow_succ] at next

theorem Represents.floor {extended : ExtendedMantissa} {v : ℚ} (represents : Represents extended v) :
    ⌊v⌋₊ = extended.mantissa := by
  obtain ⟨tail, nonneg, below, -, rfl⟩ := represents
  rw [Nat.floor_eq_iff (by positivity)]
  constructor <;> split <;> linarith

theorem Represents.rounded {extended : ExtendedMantissa} {v : ℚ} (represents : Represents extended v) :
    extended.roundedMantissa = roundEven v := by
  have floor := represents.floor
  obtain ⟨significand, round, sticky⟩ := extended
  obtain ⟨tail, nonneg, below, none, same⟩ := represents
  rw [roundEven, floor]
  simp only at none same ⊢
  have rest : v - significand = (if round then 1 / 2 else 0) + tail := by
    rw [same]
    ring
  rw [rest]
  cases round with
  | false =>
    have lower : (if false = true then 1 / 2 else 0) + tail < 1 / 2 := by simpa using below
    rw [if_pos lower]
    cases sticky <;> rfl
  | true =>
    rw [if_pos rfl, if_neg (by linarith)]
    cases sticky with
    | false =>
      rw [none.mp rfl, if_pos (by norm_num)]
      rfl
    | true =>
      have some : tail ≠ 0 := fun zero => by simpa using none.mpr zero
      rw [if_neg (by simpa using some)]
      rfl

/-! ### Places -/

theorem binary64_target (total : ℤ) : Format.binary64.targetExponent total = max (total - 53) (-1074) := by
  rfl

theorem two_zpow_pos (n : ℤ) : (0 : ℚ) < 2 ^ n :=
  zpow_pos (by norm_num) n

theorem zpow_le_iff {q : ℚ} (positive : 0 < q) (n : ℤ) : (2 : ℚ) ^ n ≤ q ↔ n ≤ Int.log 2 q := by
  have iff := Int.zpow_le_iff_le_log (b := 2) (x := n) (by norm_num) positive
  simpa using iff

theorem lt_zpow_iff {q : ℚ} (positive : 0 < q) (n : ℤ) : q < (2 : ℚ) ^ n ↔ Int.log 2 q < n := by
  rw [← not_le, zpow_le_iff positive, not_le]

/-- The binary length of a whole part determines the logarithm. -/
theorem log_eq_of_floor {q : ℚ} {n : ℤ} {significand : ℕ} (nonzero : significand ≠ 0)
    (floor : ⌊q / 2 ^ n⌋₊ = significand) : Int.log 2 q = significand.log2 + n := by
  have unit := two_zpow_pos n
  obtain ⟨atLeast, below⟩ := (Nat.floor_eq_iff' nonzero).mp floor
  rw [le_div_iff₀ unit] at atLeast
  rw [div_lt_iff₀ unit] at below
  have significandPos : (0 : ℚ) < significand := by exact_mod_cast Nat.pos_of_ne_zero nonzero
  have positive : 0 < q := lt_of_lt_of_le (mul_pos significandPos unit) atLeast
  have low : (2 : ℚ) ^ significand.log2 ≤ significand := by exact_mod_cast Nat.log2_self_le nonzero
  have high : (significand : ℚ) + 1 ≤ 2 ^ (significand.log2 + 1) := by exact_mod_cast Nat.lt_log2_self
  have reaches : (2 : ℚ) ^ ((significand.log2 : ℤ) + n) ≤ q := by
    rw [zpow_add₀ (by norm_num), zpow_natCast]
    exact le_trans (mul_le_mul_of_nonneg_right low unit.le) atLeast
  have staysBelow : q < (2 : ℚ) ^ ((significand.log2 : ℤ) + n + 1) := by
    rw [add_right_comm, zpow_add₀ (by norm_num), ← Nat.cast_succ, zpow_natCast]
    exact lt_of_lt_of_le below (mul_le_mul_of_nonneg_right high unit.le)
  have atLog := (zpow_le_iff positive _).mp reaches
  have belowLog := (lt_zpow_iff positive _).mp staysBelow
  omega

/-- The exponent that a rounding aims for, if no bit of its number is lost yet. -/
theorem target_eq_placeOf {q : ℚ} {n : ℤ} {significand : ℕ} (positive : 0 < q)
    (floor : ⌊q / 2 ^ n⌋₊ = significand) (fine : n ≤ placeOf q) :
    Format.binary64.targetExponent (totalExponent significand n) = placeOf q := by
  rw [binary64_target, totalExponent, placeOf]
  unfold placeOf at fine
  by_cases nonzero : significand = 0
  · have unit := two_zpow_pos n
    rw [nonzero, Nat.floor_eq_zero, div_lt_one unit] at floor
    have short := (lt_zpow_iff positive n).mp floor
    rw [nonzero, Nat.log2_zero]
    omega
  · rw [log_eq_of_floor nonzero floor]
    omega

theorem scaled_lt {q : ℚ} (positive : 0 < q) : q / 2 ^ placeOf q < 2 ^ 53 := by
  rw [div_lt_iff₀ (two_zpow_pos _), ← zpow_natCast, ← zpow_add₀ (by norm_num), lt_zpow_iff positive, placeOf]
  omega

theorem roundEven_le {v : ℚ} (nonneg : 0 ≤ v) {bound : ℕ} (below : v < bound) : roundEven v ≤ bound := by
  have floorBelow : ⌊v⌋₊ < bound := (Nat.floor_lt nonneg).mpr below
  unfold roundEven
  split
  · omega
  · split <;> omega

/-- A significand of at most 53 bits stays at its place, and one more than these is moved by one place. -/
theorem settle {significand : ℕ} {place : ℤ} (short : significand ≤ 2 ^ 53) (inRange : -1074 ≤ place) :
    shiftToTargetExponent Format.binary64 significand place .exact =
      if significand < 2 ^ 53 then (⟨significand, false, false⟩, place) else (⟨2 ^ 52, false, false⟩, place + 1) := by
  rw [shiftToTargetExponent, shiftToExponent, binary64_target, totalExponent]
  split
  · next fits =>
    have length : significand.log2 < 53 := by
      by_cases nonzero : significand = 0
      · simp [nonzero]
      · exact (Nat.log2_lt nonzero).mpr fits
    have still : (max ((significand.log2 : ℤ) + 1 + place - 53) (-1074) - place).toNat = 0 := by omega
    simp only [still]
    rw [Nat.cast_zero, Int.add_zero]
    rfl
  · next full =>
    have same : significand = 2 ^ 53 := by omega
    have length : (2 ^ 53).log2 = 53 := by decide
    have once : (max (((2 ^ 53 : ℕ).log2 : ℤ) + 1 + place - 53) (-1074) - place).toNat = 1 := by omega
    rw [same]
    simp only [once]
    rfl

/-- Rounding gives the nearest double, if no bit of the number is lost before. -/
theorem roundWithAccuracy_eq_nearest {q : ℚ} {significand : ℕ} {n : ℤ} {accuracy : Accuracy} (positive : 0 < q)
    (represents : Represents (.ofMantissaAndAccuracy significand accuracy) (q / 2 ^ n)) (fine : n ≤ placeOf q) :
    roundWithAccuracy Format.binary64 .positive significand n accuracy = nearest q := by
  have isSignificand : (ExtendedMantissa.ofMantissaAndAccuracy significand accuracy).mantissa = significand := by
    unfold ExtendedMantissa.ofMantissaAndAccuracy
    split <;> rfl
  have target := target_eq_placeOf positive (represents.floor.trans isSignificand) fine
  have aligned : n + ((placeOf q - n).toNat : ℤ) = placeOf q := by omega
  have shifted := represents.shiftRight (placeOf q - n).toNat
  rw [div_div, ← zpow_natCast, ← zpow_add₀ (by norm_num), aligned] at shifted
  have rounded := shifted.rounded
  have short : roundEven (q / 2 ^ placeOf q) ≤ 2 ^ 53 := by
    apply roundEven_le (div_nonneg positive.le (two_zpow_pos _).le)
    exact_mod_cast scaled_lt positive
  have inRange : -1074 ≤ placeOf q := le_max_right _ _
  unfold roundWithAccuracy
  rw [show shiftToTargetExponent Format.binary64 significand n accuracy =
    (ExtendedMantissa.ofMantissaAndAccuracy significand accuracy >>> (placeOf q - n).toNat, placeOf q) by
      rw [shiftToTargetExponent, target, shiftToExponent, aligned]]
  dsimp only
  rw [rounded, settle short inRange]
  unfold nearest
  by_cases fits : roundEven (q / 2 ^ placeOf q) < 2 ^ 53
  · rw [if_pos fits]
    by_cases nothing : roundEven (q / 2 ^ placeOf q) = 0
    · rw [dif_pos nothing, dif_pos nothing]
    · rw [dif_neg nothing, dif_neg nothing, if_pos fits]
  · have nonzero : roundEven (q / 2 ^ placeOf q) ≠ 0 := by omega
    rw [if_neg fits, dif_neg nonzero, if_neg fits]
    rfl

/-! ### Products and quotients -/

/-- The value of a positive significand at an exponent. -/
def valueOf (significand : ℕ) (exponent : ℤ) : ℚ :=
  significand * 2 ^ exponent

theorem valueOf_pos {significand : ℕ} (positive : 0 < significand) (exponent : ℤ) : 0 < valueOf significand exponent :=
  mul_pos (by exact_mod_cast positive) (two_zpow_pos exponent)

/-- Bits that are appended to a significand are taken off again by its exponent. -/
theorem valueOf_shiftLeft (significand count : ℕ) (exponent : ℤ) :
    valueOf (significand <<< count) (exponent - count) = valueOf significand exponent := by
  rw [valueOf, valueOf, Nat.shiftLeft_eq]
  push_cast
  rw [mul_assoc, ← zpow_natCast, ← zpow_add₀ (by norm_num), add_sub_cancel]

theorem valueOf_natural (n : ℕ) : valueOf n 0 = n := by
  rw [valueOf, zpow_zero, mul_one]

theorem log_valueOf {significand : ℕ} (positive : 0 < significand) (exponent : ℤ) :
    Int.log 2 (valueOf significand exponent) = significand.log2 + exponent := by
  apply log_eq_of_floor positive.ne'
  rw [valueOf, mul_div_cancel_right₀ _ (two_zpow_pos exponent).ne', Nat.floor_natCast]

/-- A rounding of an exact value that stands at its place or below it. -/
theorem round_fine {significand : ℕ} {exponent : ℤ} (positive : 0 < significand)
    (fine : exponent ≤ placeOf (valueOf significand exponent)) :
    roundWithAccuracy Format.binary64 .positive significand exponent .exact = nearest (valueOf significand exponent) := by
  apply roundWithAccuracy_eq_nearest (valueOf_pos positive exponent) _ fine
  rw [valueOf, mul_div_cancel_right₀ _ (two_zpow_pos exponent).ne']
  exact represents_exact significand

/-- A rounding of an exact value of at least 53 bits. -/
theorem round_exact {significand : ℕ} {exponent : ℤ} (long : 2 ^ 52 ≤ significand) :
    roundWithAccuracy Format.binary64 .positive significand exponent .exact = nearest (valueOf significand exponent) := by
  have positive : 0 < significand := by omega
  have length : 52 ≤ significand.log2 := (Nat.le_log2 positive.ne').mpr long
  apply round_fine positive
  rw [placeOf, log_valueOf positive]
  omega

theorem valueOf_mul (left right : ℕ) (leftExponent rightExponent : ℤ) :
    valueOf left leftExponent * valueOf right rightExponent =
      valueOf (left * right) (leftExponent + rightExponent) := by
  unfold valueOf
  rw [zpow_add₀ (by norm_num)]
  push_cast
  ring

theorem mul_eq_nearest {left right : ℕ} {leftExponent rightExponent : ℤ} (leftPos : 0 < left) (rightPos : 0 < right)
    (long : 2 ^ 52 ≤ left * right) :
    mul Format.binary64 (.finite .positive left leftExponent leftPos) (.finite .positive right rightExponent rightPos) =
      nearest (valueOf left leftExponent * valueOf right rightExponent) := by
  rw [valueOf_mul, ← round_exact long]
  rfl

theorem log_div_ge {q r : ℚ} (qPos : 0 < q) (rPos : 0 < r) : Int.log 2 q - Int.log 2 r - 1 ≤ Int.log 2 (q / r) := by
  rw [← zpow_le_iff (div_pos qPos rPos), le_div_iff₀ rPos]
  have low := (zpow_le_iff qPos _).mpr (le_refl (Int.log 2 q))
  have high := (lt_zpow_iff rPos (Int.log 2 r + 1)).mpr (Int.lt_succ _)
  calc (2 : ℚ) ^ (Int.log 2 q - Int.log 2 r - 1) * r
      ≤ 2 ^ (Int.log 2 q - Int.log 2 r - 1) * 2 ^ (Int.log 2 r + 1) :=
        mul_le_mul_of_nonneg_left high.le (two_zpow_pos _).le
    _ = 2 ^ Int.log 2 q := by
        rw [← zpow_add₀ (by norm_num)]
        congr 1
        omega
    _ ≤ q := low

theorem div_eq_nearest {left right : ℕ} {leftExponent rightExponent : ℤ} (leftPos : 0 < left) (rightPos : 0 < right) :
    div Format.binary64 (.finite .positive left leftExponent leftPos) (.finite .positive right rightExponent rightPos) =
      nearest (valueOf left leftExponent / valueOf right rightExponent) := by
  have positive := div_pos (valueOf_pos leftPos leftExponent) (valueOf_pos rightPos rightExponent)
  have target := binary64_target (totalExponent left leftExponent - totalExponent right rightExponent)
  generalize isTarget : min (leftExponent - rightExponent) (Format.binary64.targetExponent
    (totalExponent left leftExponent - totalExponent right rightExponent)) = n
  have aligned : leftExponent - rightExponent = n + ((leftExponent - rightExponent - n).toNat : ℤ) := by omega
  have represents : Represents (.ofMantissaAndAccuracy (left <<< (leftExponent - rightExponent - n).toNat / right)
      (accuracyOfFraction (left <<< (leftExponent - rightExponent - n).toNat % right) right))
      (valueOf left leftExponent / valueOf right rightExponent / 2 ^ n) := by
    have same : valueOf left leftExponent / valueOf right rightExponent / 2 ^ n =
        ((left <<< (leftExponent - rightExponent - n).toNat : ℕ) : ℚ) / right := by
      have powers : (2 : ℚ) ^ leftExponent =
          2 ^ (leftExponent - rightExponent - n).toNat * (2 ^ rightExponent * 2 ^ n) := by
        rw [← zpow_natCast, ← zpow_add₀ (by norm_num), ← zpow_add₀ (by norm_num)]
        congr 1
        omega
      have rightNonzero : (right : ℚ) ≠ 0 := by exact_mod_cast rightPos.ne'
      have unit := (two_zpow_pos n).ne'
      have rightUnit := (two_zpow_pos rightExponent).ne'
      rw [valueOf, valueOf, powers, Nat.shiftLeft_eq]
      push_cast
      field_simp
    rw [same]
    exact represents_fraction rightPos
  have fine : n ≤ placeOf (valueOf left leftExponent / valueOf right rightExponent) := by
    have quotient := log_div_ge (valueOf_pos leftPos leftExponent) (valueOf_pos rightPos rightExponent)
    rw [log_valueOf leftPos, log_valueOf rightPos] at quotient
    simp only [totalExponent] at target isTarget
    rw [placeOf]
    omega
  have rounded := roundWithAccuracy_eq_nearest positive represents fine
  rw [← rounded]
  show (match divCore Format.binary64 left leftExponent right rightExponent with
    | (m, e, acc) => roundWithAccuracy Format.binary64 .positive m e acc) = _
  simp only [divCore, isTarget]

end TradingStrategy.Number

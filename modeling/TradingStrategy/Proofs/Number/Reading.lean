import TradingStrategy.Proofs.Number.Packing

/-!
How decimals are read.

Owns:
- `Decimal.toFloat_eq_nearest`: the double that a decimal is read as is the nearest one to its value, so it does not
  depend on how the value is divided into digits and an exponent;
- `Decimal.toFloat_shortest`: the shortest decimal of a finite double is read as that double.
-/

namespace TradingStrategy.Number

open Float.Model (Format UnpackedFloat)
open Float.Model.UnpackedFloat

/-! ### The nearest double of what is too large, too small or exact -/

theorem nearest_canonical {significand : ℕ} {exponent : ℤ} (canonical : Canonical significand exponent) :
    nearest (valueOf significand exponent) = .finite .positive significand exponent canonical.positive := by
  have place : placeOf (valueOf significand exponent) = exponent := by
    have atMost : significand.log2 < 53 := (Nat.log2_lt canonical.positive.ne').mpr canonical.short
    have low := canonical.low
    rw [placeOf, log_valueOf canonical.positive]
    rcases canonical.full with full | rfl
    · have atLeast : 52 ≤ significand.log2 := (Nat.le_log2 canonical.positive.ne').mpr full
      omega
    · omega
  have whole : roundEven (significand : ℚ) = significand := by
    rw [roundEven, Nat.floor_natCast, sub_self, if_pos (by norm_num)]
  have scaled : valueOf significand exponent / 2 ^ exponent = significand := by
    rw [valueOf, mul_div_cancel_right₀ _ (two_zpow_pos exponent).ne']
  have rounded : roundEven (valueOf significand exponent / 2 ^ placeOf (valueOf significand exponent)) = significand := by
    rw [place, scaled, whole]
  unfold nearest
  rw [dif_neg (rounded.trans_ne canonical.positive.ne'), if_pos (rounded.trans_lt canonical.short)]
  exact finite_congr rfl rounded place

theorem pack_nearest_overflow {q : ℚ} (large : 2 ^ (1024 : ℤ) ≤ q) :
    pack Format.binary64 (nearest q) = packedInfinity Format.binary64 .positive := by
  have positive : 0 < q := lt_of_lt_of_le (two_zpow_pos 1024) large
  have atLeast := (zpow_le_iff positive 1024).mp large
  have place : placeOf q = Int.log 2 q - 52 := by
    rw [placeOf]
    omega
  have scaled : 1 ≤ q / 2 ^ placeOf q := by
    rw [le_div_iff₀ (two_zpow_pos _), one_mul, zpow_le_iff positive]
    omega
  have nonzero : roundEven (q / 2 ^ placeOf q) ≠ 0 := by
    have floor : 1 ≤ ⌊q / 2 ^ placeOf q⌋₊ := (Nat.le_floor_iff' one_ne_zero).mpr (by exact_mod_cast scaled)
    unfold roundEven
    split
    · omega
    · split <;> omega
  unfold nearest
  rw [dif_neg nonzero]
  by_cases fits : roundEven (q / 2 ^ placeOf q) < 2 ^ 53
  · rw [if_pos fits]
    exact pack_overflow _ (by omega)
  · rw [if_neg fits]
    exact pack_overflow _ (by omega)

theorem nearest_underflow {q : ℚ} (positive : 0 < q) (small : q ≤ 2 ^ (-1075 : ℤ)) : nearest q = .zero .positive := by
  have below : q < 2 ^ (-1074 : ℤ) := lt_of_le_of_lt small (zpow_lt_zpow_right₀ (by norm_num) (by norm_num))
  have atMost := (lt_zpow_iff positive (-1074)).mp below
  have place : placeOf q = -1074 := by
    rw [placeOf]
    omega
  have half : q / 2 ^ (-1074 : ℤ) ≤ 1 / 2 := by
    rw [div_le_iff₀ (two_zpow_pos _)]
    refine le_trans small (le_of_eq ?_)
    rw [show (-1075 : ℤ) = -1074 - 1 by norm_num, zpow_sub_one₀ two_ne_zero]
    ring
  have floor : ⌊q / 2 ^ (-1074 : ℤ)⌋₊ = 0 := Nat.floor_eq_zero.mpr (lt_of_le_of_lt half (by norm_num))
  have rounded : roundEven (q / 2 ^ placeOf q) = 0 := by
    rw [place, roundEven, floor]
    simp only [Nat.cast_zero, sub_zero, Nat.zero_mod, add_zero]
    split
    · rfl
    · next notBelow => rw [if_pos (le_antisymm half (not_lt.mp notBelow))]
  unfold nearest
  rw [dif_pos rounded]

namespace Decimal

/-- The value of a decimal. -/
def value (d : Decimal) : ℚ :=
  d.digits * 10 ^ d.exponent

theorem value_pos {d : Decimal} (nonzero : d.digits ≠ 0) : 0 < d.value :=
  mul_pos (by exact_mod_cast Nat.pos_of_ne_zero nonzero) (zpow_pos (by norm_num) _)

/-! ### Reading -/

theorem valueOf_pow (power : ℕ) : valueOf (10 ^ power) 0 = 10 ^ (power : ℤ) := by
  rw [valueOf_natural, zpow_natCast]
  push_cast
  rfl

theorem value_overflow {digits : ℕ} (nonzero : digits ≠ 0) {exponent : ℤ} (large : 2 ^ 11 < exponent) :
    2 ^ (1024 : ℤ) ≤ value ⟨digits, exponent⟩ := by
  have atLeastOne : (1 : ℚ) ≤ digits := by exact_mod_cast Nat.pos_of_ne_zero nonzero
  calc (2 : ℚ) ^ (1024 : ℤ) ≤ 2 ^ exponent := zpow_le_zpow_right₀ (by norm_num) (by omega)
    _ ≤ 10 ^ exponent := zpow_le_zpow_left₀ (by omega) (by norm_num) (by norm_num)
    _ ≤ digits * 10 ^ exponent := le_mul_of_one_le_left (zpow_pos (by norm_num) _).le atLeastOne

theorem value_underflow {digits : ℕ} {exponent : ℤ} (small : exponent < -(2 ^ 11 + (digits.log2 : ℤ))) :
    value ⟨digits, exponent⟩ ≤ 2 ^ (-1075 : ℤ) := by
  have power : (10 : ℚ) ^ exponent ≤ 2 ^ exponent := by
    have flipped : (2 : ℚ) ^ (-exponent) ≤ 10 ^ (-exponent) :=
      zpow_le_zpow_left₀ (by omega) (by norm_num) (by norm_num)
    have inverted := inv_anti₀ (two_zpow_pos (-exponent)) flipped
    rwa [← zpow_neg, ← zpow_neg, neg_neg] at inverted
  have length : (digits : ℚ) ≤ 2 ^ ((digits.log2 : ℤ) + 1) := by
    rw [← Nat.cast_succ, zpow_natCast]
    exact_mod_cast Nat.lt_log2_self.le
  calc (digits : ℚ) * 10 ^ exponent ≤ 2 ^ ((digits.log2 : ℤ) + 1) * 2 ^ exponent :=
        mul_le_mul length power (zpow_pos (by norm_num) _).le (two_zpow_pos _).le
    _ = 2 ^ ((digits.log2 : ℤ) + 1 + exponent) := (zpow_add₀ (by norm_num) _ _).symm
    _ ≤ 2 ^ (-1075 : ℤ) := zpow_le_zpow_right₀ (by norm_num) (by omega)

/-- Reading over unpacked doubles. What its two shortcuts take would overflow or be rounded to zero anyway. -/
theorem pack_ofScientific {digits : ℕ} (nonzero : digits ≠ 0) (exponent : ℤ) :
    pack Format.binary64 (ofScientific Format.binary64 digits exponent) =
      pack Format.binary64 (nearest (value ⟨digits, exponent⟩)) := by
  have positive : 0 < value ⟨digits, exponent⟩ := value_pos nonzero
  unfold ofScientific
  rw [dif_neg nonzero]
  by_cases large : exponent > 2 ^ Format.binary64.exponentBits
  · rw [if_pos large, pack_nearest_overflow (value_overflow nonzero large)]
    rfl
  rw [if_neg large]
  by_cases small : exponent < -(2 ^ Format.binary64.exponentBits + (digits.log2 : ℤ))
  · rw [if_pos small, nearest_underflow positive (value_underflow small)]
  rw [if_neg small]
  by_cases nonneg : 0 ≤ exponent
  · have long : 2 ^ 52 ≤ digits <<< 53 * 10 ^ exponent.toNat := by
      rw [Nat.shiftLeft_eq]
      have digitsPos := Nat.pos_of_ne_zero nonzero
      have powerPos : 0 < 10 ^ exponent.toNat := by positivity
      nlinarith [Nat.mul_le_mul digitsPos powerPos]
    have same : valueOf (digits <<< 53) (-53) * valueOf (10 ^ exponent.toNat) 0 = value ⟨digits, exponent⟩ := by
      have unshifted : valueOf (digits <<< 53) (-53) = digits := by
        rw [← valueOf_natural digits]
        exact valueOf_shiftLeft digits 53 0
      rw [unshifted, valueOf_pow, Int.toNat_of_nonneg nonneg, value]
    rw [if_pos nonneg, ← same]
    exact congrArg (pack Format.binary64) (mul_eq_nearest _ _ long)
  · have same : valueOf digits 0 / valueOf (10 ^ (-exponent).toNat) 0 = value ⟨digits, exponent⟩ := by
      rw [valueOf_pow, Int.toNat_of_nonneg (by omega), valueOf_natural, zpow_neg, div_inv_eq_mul]
      rfl
    rw [if_neg nonneg, ← same]
    exact congrArg (pack Format.binary64) (div_eq_nearest _ _)

/-! ### The short way over exact operands -/

/-- A double is a natural number, and all of its 53 bits are used. -/
def Exactly (x : Float) (n : ℕ) : Prop :=
  ∃ significand exponent positive, x.toModel.unpack = .finite .positive significand exponent positive ∧
    2 ^ 52 ≤ significand ∧ valueOf significand exponent = n

theorem Exactly.mul {x y : Float} {n m : ℕ} (left : Exactly x n) (right : Exactly y m) :
    x * y = ⟨Float.Model.pack (nearest (n * m))⟩ := by
  obtain ⟨leftSignificand, leftExponent, leftPos, leftUnpacked, leftLong, isLeft⟩ := left
  obtain ⟨rightSignificand, rightExponent, rightPos, rightUnpacked, _, isRight⟩ := right
  have long : 2 ^ 52 ≤ leftSignificand * rightSignificand :=
    le_trans leftLong (Nat.le_mul_of_pos_right _ rightPos)
  show Float.ofModel (Float.Model.pack
    (UnpackedFloat.mul Format.binary64 x.toModel.unpack y.toModel.unpack)) = _
  rw [leftUnpacked, rightUnpacked, mul_eq_nearest _ _ long, isLeft, isRight]

theorem Exactly.div {x y : Float} {n m : ℕ} (left : Exactly x n) (right : Exactly y m) :
    x / y = ⟨Float.Model.pack (nearest (n / m))⟩ := by
  obtain ⟨leftSignificand, leftExponent, leftPos, leftUnpacked, _, isLeft⟩ := left
  obtain ⟨rightSignificand, rightExponent, rightPos, rightUnpacked, _, isRight⟩ := right
  show Float.ofModel (Float.Model.pack
    (UnpackedFloat.div Format.binary64 x.toModel.unpack y.toModel.unpack)) = _
  rw [leftUnpacked, rightUnpacked, div_eq_nearest, isLeft, isRight]

theorem exactly_natural {n : ℕ} (nonzero : n ≠ 0) (short : n < 2 ^ 53) : Exactly n.toUInt64.toFloat n := by
  have atMost : n.log2 < 53 := (Nat.log2_lt nonzero).mpr short
  have atLeast : 2 ^ n.log2 ≤ n := Nat.log2_self_le nonzero
  have below : n < 2 ^ (n.log2 + 1) := Nat.lt_log2_self
  generalize isCount : 52 - n.log2 = count
  have long : 2 ^ 52 ≤ n <<< count := by
    rw [Nat.shiftLeft_eq]
    calc 2 ^ 52 = 2 ^ n.log2 * 2 ^ count := by rw [← pow_add]; congr 1; omega
      _ ≤ n * 2 ^ count := Nat.mul_le_mul_right _ atLeast
  have stillShort : n <<< count < 2 ^ 53 := by
    rw [Nat.shiftLeft_eq]
    calc n * 2 ^ count < 2 ^ (n.log2 + 1) * 2 ^ count := Nat.mul_lt_mul_of_pos_right below (by positivity)
      _ = 2 ^ 53 := by rw [← pow_add]; congr 1; omega
  have canonical : Canonical (n <<< count) (0 - count) :=
    ⟨by omega, stillShort, by omega, by omega, .inl long⟩
  refine ⟨n <<< count, 0 - count, canonical.positive, ?_, long, ?_⟩
  · have target : Format.binary64.targetExponent (Float.Model.totalExponent n 0) = -count := by
      rw [binary64_target, Float.Model.totalExponent]
      omega
    have isNumber : n.toUInt64.toNat = n := UInt64.toNat_ofNat_of_lt (by rw [UInt64.size]; omega)
    have above : compare (n : ℤ) 0 = .gt := compare_gt_iff_gt.mpr (by omega)
    have normalized : UnpackedFloat.ofUInt64 Format.binary64 n.toUInt64 =
        roundWithAccuracy Format.binary64 .positive (n <<< count) (0 - count) .exact := by
      show UnpackedFloat.normalize Format.binary64 (n.toUInt64.toNat : ℤ) 0 .positive = _
      rw [isNumber, UnpackedFloat.normalize, above]
      simp only [UnpackedFloat.round, Int.toNat_natCast, target, decreaseExponent]
      rw [show (0 - -(count : ℤ)).toNat = count by omega]
    show unpack Format.binary64 (pack Format.binary64 (UnpackedFloat.ofUInt64 Format.binary64 n.toUInt64)) = _
    rw [normalized, round_exact long, nearest_canonical canonical, unpack_pack canonical]
  · rw [valueOf_shiftLeft, valueOf_natural]

/-- The test behind `Exactly`. -/
def isExactly (x : Float) (n : ℕ) : Bool :=
  match x.toModel.unpack with
  | .finite .positive significand exponent _ =>
      decide (2 ^ 52 ≤ significand ∧ significand * 2 ^ exponent.toNat = n * 2 ^ (-exponent).toNat)
  | _ => false

theorem exactly_of_isExactly {x : Float} {n : ℕ} (exactly : isExactly x n = true) : Exactly x n := by
  unfold isExactly at exactly
  split at exactly
  · next significand exponent positive unpacked =>
    obtain ⟨long, same⟩ := of_decide_eq_true exactly
    refine ⟨significand, exponent, positive, unpacked, long, ?_⟩
    have split : (2 : ℚ) ^ exponent * 2 ^ (-exponent).toNat = 2 ^ exponent.toNat := by
      rw [← zpow_natCast, ← zpow_natCast, ← zpow_add₀ (by norm_num)]
      congr 1
      omega
    have powerPos : (0 : ℚ) < 2 ^ (-exponent).toNat := by positivity
    apply mul_right_cancel₀ powerPos.ne'
    rw [valueOf, mul_assoc, split]
    exact_mod_cast same
  · contradiction

theorem exactly_power {power : ℕ} (inTable : power < Float.exactlyRepresentablePowersOfTen.size) :
    Exactly Float.exactlyRepresentablePowersOfTen[power] (10 ^ power) := by
  have checked : ∀ index : Fin 23, isExactly Float.exactlyRepresentablePowersOfTen[index] (10 ^ index.val) = true := by
    decide +kernel
  exact exactly_of_isExactly (checked ⟨power, inTable⟩)

theorem model_congr {x y : UnpackedFloat} (same : pack Format.binary64 x = pack Format.binary64 y) :
    Float.Model.pack x = Float.Model.pack y := by
  have mk_congr : ∀ {bits otherBits : UInt64} {valid : Format.binary64.Valid bits.toBitVec}
      {otherValid : Format.binary64.Valid otherBits.toBitVec}, bits = otherBits →
      Float.Model.mk bits valid = ⟨otherBits, otherValid⟩ := by
    intro _ _ _ _ bitsSame
    subst bitsSame
    rfl
  exact mk_congr (congrArg UInt64.ofBitVec same)

/-- A decimal is read as the double nearest to its value. -/
theorem toFloat_eq_nearest {d : Decimal} (nonzero : d.digits ≠ 0) :
    d.toFloat = ⟨Float.Model.pack (nearest d.value)⟩ := by
  obtain ⟨digits, exponent⟩ := d
  show Float.ofScientific digits (decide (exponent < 0)) exponent.natAbs = _
  unfold Float.ofScientific
  split
  · next short =>
    have digitsExactly := exactly_natural nonzero short.1
    have inTable : exponent.natAbs < Float.exactlyRepresentablePowersOfTen.size := Nat.lt_succ_of_le short.2
    have powerExactly := exactly_power inTable
    unfold value
    by_cases negative : exponent < 0
    · simp only [negative, decide_true, if_true]
      rw [digitsExactly.div powerExactly]
      have power : ((10 ^ exponent.natAbs : ℕ) : ℚ)⁻¹ = 10 ^ exponent := by
        rw [Nat.cast_pow, ← zpow_natCast, ← zpow_neg]
        congr 1
        omega
      rw [div_eq_mul_inv, power]
    · simp only [negative, decide_false, Bool.false_eq_true, if_false]
      rw [digitsExactly.mul powerExactly]
      have power : ((10 ^ exponent.natAbs : ℕ) : ℚ) = 10 ^ exponent := by
        rw [Nat.cast_pow, ← zpow_natCast]
        congr 1
        omega
      rw [power]
  · have signed : (if decide (exponent < 0) = true then Int.negOfNat exponent.natAbs else Int.ofNat exponent.natAbs) =
        exponent := by
      split
      · next negative =>
        have below : exponent < 0 := of_decide_eq_true negative
        rw [Int.negOfNat_eq, Int.ofNat_eq_natCast]
        omega
      · next notNegative =>
        have atLeast : ¬ exponent < 0 := by simpa using notNegative
        rw [Int.ofNat_eq_natCast]
        omega
    simp only [signed]
    exact congrArg Float.ofModel (model_congr (pack_ofScientific nonzero exponent))

theorem toFloat_zero (exponent : ℤ) : toFloat ⟨0, exponent⟩ = 0.0 := by
  show Float.ofScientific 0 (decide (exponent < 0)) exponent.natAbs = _
  unfold Float.ofScientific
  split
  · next short =>
    have checked : ∀ index : Fin 23,
        (0 : ℕ).toUInt64.toFloat / Float.exactlyRepresentablePowersOfTen[index] = 0.0 ∧
          (0 : ℕ).toUInt64.toFloat * Float.exactlyRepresentablePowersOfTen[index] = 0.0 := by
      decide +kernel
    have zeros := checked ⟨exponent.natAbs, Nat.lt_succ_of_le short.2⟩
    simp only
    split
    · exact zeros.1
    · exact zeros.2
  · rfl

/-- Decimals of one value are read as one double. -/
theorem toFloat_congr {d e : Decimal} (same : d.value = e.value) : d.toFloat = e.toFloat := by
  have zero : ∀ decimal : Decimal, decimal.digits = 0 ↔ decimal.value = 0 := by
    intro decimal
    constructor
    · intro none
      rw [value, none, Nat.cast_zero, zero_mul]
    · intro isZero
      by_contra nonzero
      exact (value_pos nonzero).ne' isZero
  by_cases none : d.digits = 0
  · have otherNone := (zero e).mpr (same ▸ (zero d).mp none)
    obtain ⟨digits, exponent⟩ := d
    obtain ⟨otherDigits, otherExponent⟩ := e
    subst none otherNone
    rw [toFloat_zero, toFloat_zero]
  · have otherNonzero : e.digits ≠ 0 := fun otherNone => none ((zero d).mpr (same ▸ (zero e).mp otherNone))
    rw [toFloat_eq_nearest none, toFloat_eq_nearest otherNonzero, same]

theorem unpackSign_nearest (q : ℚ) : @unpackSign Format.binary64 (pack Format.binary64 (nearest q)) = 0#1 := by
  unfold nearest
  by_cases nothing : roundEven (q / 2 ^ placeOf q) = 0
  · rw [dif_pos nothing]
    exact unpackSign_packComponents .positive 0 0
  rw [dif_neg nothing]
  by_cases fits : roundEven (q / 2 ^ placeOf q) < 2 ^ 53
  · rw [if_pos fits]
    exact unpackSign_pack _
  · rw [if_neg fits]
    exact unpackSign_pack _

/-- Decimals have no sign. -/
theorem isNegative_toFloat (d : Decimal) : isNegative d.toFloat = false := by
  by_cases none : d.digits = 0
  · obtain ⟨digits, exponent⟩ := d
    subst none
    rw [toFloat_zero]
    decide
  · rw [Bool.eq_false_iff, ne_eq, isNegative_iff, toFloat_eq_nearest none]
    intro negative
    have positive := unpackSign_nearest d.value
    exact absurd (positive.symm.trans negative) (by decide)

/-! ### The shortest decimal -/

theorem value_stripZeros (fuel : ℕ) (d : Decimal) : (stripZeros fuel d).value = d.value := by
  induction fuel generalizing d with
  | zero => rfl
  | succ fuel inductionHypothesis =>
    rw [stripZeros]
    split
    · next trailing =>
      have tens : (d.digits : ℚ) = (d.digits / 10 : ℕ) * 10 := by
        exact_mod_cast (Nat.div_mul_cancel (Nat.dvd_of_mod_eq_zero trailing.2)).symm
      rw [inductionHypothesis, value, value, tens, zpow_add_one₀ (by norm_num)]
      ring
    · rfl

theorem value_exact (significand : ℕ) (exponent : ℤ) :
    (exact ⟨significand, exponent⟩).value = valueOf significand exponent := by
  rw [exact, valueOf]
  split
  · next nonneg =>
    rw [value, zpow_zero, mul_one, Nat.shiftLeft_eq]
    push_cast
    rw [← zpow_natCast, Int.toNat_of_nonneg nonneg]
  · next negative =>
    have below : ¬ 0 ≤ exponent := negative
    have fives : (5 : ℚ) ^ (-exponent).toNat * 10 ^ exponent = 2 ^ exponent := by
      rw [← zpow_natCast, Int.toNat_of_nonneg (by omega), show (10 : ℚ) = 5 * 2 by norm_num, mul_zpow, ← mul_assoc,
        ← zpow_add₀ (by norm_num), neg_add_cancel, zpow_zero, one_mul]
    show ((significand * 5 ^ (-exponent).toNat : ℕ) : ℚ) * 10 ^ exponent = significand * 2 ^ exponent
    push_cast
    rw [mul_assoc, fives]

theorem readsBack_onGrid {tie : Tie} {x : Float} {b : Binary} {grid : ℤ} {d : Decimal}
    (found : onGrid tie x b grid = some d) : d.readsBack x = true := by
  unfold onGrid at found
  simp only at found
  exact List.find?_some (p := fun decimal : Decimal => decimal.readsBack x) found

theorem toFloat_shortestPositive (tie : Tie) {x : Float} {significand : ℕ} {exponent : ℤ} {positive : 0 < significand}
    (unpacked : x.toModel.unpack = .finite .positive significand exponent positive) :
    (shortestPositive tie x).toFloat = x := by
  have normalized : ∀ d : Decimal, d.toFloat = x → d.normalize.toFloat = x := by
    intro d isX
    rw [← isX]
    exact toFloat_congr (value_stripZeros _ d)
  unfold shortestPositive
  simp only
  split
  · next d found =>
    apply normalized
    obtain ⟨count, _, onOne⟩ := List.exists_of_findSome?_eq_some found
    exact eq_of_finite_beq unpacked (readsBack_onGrid onOne)
  · apply normalized
    have canonical := (unpack_finite unpacked).1
    have nonzero : (exact ⟨significand, exponent⟩).digits ≠ 0 := by
      intro none
      have isZero : (exact ⟨significand, exponent⟩).value = 0 := by rw [value, none, Nat.cast_zero, zero_mul]
      rw [value_exact] at isZero
      exact (valueOf_pos positive exponent).ne' isZero
    rw [ofFloat_eq unpacked, toFloat_eq_nearest nonzero, value_exact, nearest_canonical canonical,
      ← float_of_unpack unpacked]

/-- The shortest decimal of a finite double without a sign is read as that double. -/
theorem toFloat_shortest (tie : Tie) {x : Float} (finite : x.isFinite = true) (notNegative : isNegative x = false) :
    (shortest tie x).toFloat = x := by
  have isFinite : x.toModel.unpack.isFinite = true := finite
  unfold shortest
  cases unpacked : x.toModel.unpack with
  | notANumber | infinity =>
    rw [unpacked] at isFinite
    contradiction
  | zero sign =>
    have same := float_of_unpack_zero unpacked
    cases sign with
    | negative =>
      rw [same] at notNegative
      exact absurd notNegative (by decide)
    | positive =>
      obtain rfl : x = 0.0 := same.trans (by decide)
      rw [if_pos (by decide)]
      exact toFloat_zero 0
  | finite sign significand exponent positive =>
    have isPositive : sign = .positive := by
      cases sign with
      | positive => rfl
      | negative =>
        rw [(isNegative_of_unpack unpacked).mpr rfl] at notNegative
        contradiction
    subst isPositive
    have magnitude : x.abs = x := by
      show Float.ofModel (Float.Model.pack x.toModel.unpack.abs) = x
      rw [unpacked]
      exact (float_of_unpack unpacked).symm
    rw [beq_zero_of_unpack unpacked, if_neg (by decide), magnitude]
    exact toFloat_shortestPositive tie unpacked

end Decimal

end TradingStrategy.Number

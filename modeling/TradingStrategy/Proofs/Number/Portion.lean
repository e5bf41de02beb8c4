import TradingStrategy.Order.Bracket
import TradingStrategy.Proofs.Number.Packing

/-!
Portions of positive numbers.

Owns:
- that the product of two canonical doubles is the double nearest to their exact product, subnormal ones included;
- `portion_finite`: a number above zero, times one between zero and one, is finite.

A product that is too small for a double is zero. This is the only way in which a portion is lost.
-/

namespace TradingStrategy.Number

open Float.Model (Format UnpackedFloat)
open Float.Model.UnpackedFloat

/-! ### Rounding does not leave a place -/

theorem roundEven_le_of_le {v : ℚ} (nonneg : 0 ≤ v) {bound : ℕ} (atMost : v ≤ bound) : roundEven v ≤ bound := by
  rcases atMost.lt_or_eq with below | rfl
  · exact roundEven_le nonneg below
  · simp [roundEven]

theorem Canonical.placeOf_valueOf {significand : ℕ} {exponent : ℤ} (canonical : Canonical significand exponent) :
    placeOf (valueOf significand exponent) = exponent := by
  have ⟨positive, short, low, high, full⟩ := canonical
  have atMost : significand.log2 < 53 := (Nat.log2_lt positive.ne').mpr short
  rw [placeOf, log_valueOf positive]
  rcases full with full | lowest
  · have atLeast : 52 ≤ significand.log2 := (Nat.le_log2 positive.ne').mpr full
    omega
  · omega

theorem placeOf_mono {q r : ℚ} (positive : 0 < q) (atMost : q ≤ r) : placeOf q ≤ placeOf r := by
  have logs : Int.log 2 q ≤ Int.log 2 r := Int.log_mono_right positive atMost
  unfold placeOf
  omega

/-- What rounds to a double is zero, or stands at a place up to a bound. -/
def Within (bound : ℤ) : UnpackedFloat → Prop
  | .zero _ => True
  | .finite sign _ exponent _ => sign = .positive ∧ exponent ≤ bound
  | .infinity _ | .notANumber => False

/-- A number that is at most a double does not round to a place above that of the double. -/
theorem Canonical.nearest_within {significand : ℕ} {exponent : ℤ} (canonical : Canonical significand exponent) {q : ℚ}
    (positive : 0 < q) (atMost : q ≤ valueOf significand exponent) : Within exponent (nearest q) := by
  have place := placeOf_mono positive atMost
  rw [canonical.placeOf_valueOf] at place
  unfold nearest
  by_cases nothing : roundEven (q / 2 ^ placeOf q) = 0
  · rw [dif_pos nothing]
    trivial
  rw [dif_neg nothing]
  by_cases fits : roundEven (q / 2 ^ placeOf q) < 2 ^ 53
  · rw [if_pos fits]
    exact ⟨rfl, place⟩
  rw [if_neg fits]
  refine ⟨rfl, ?_⟩
  rcases place.lt_or_eq with below | same
  · exact below
  · have scaled : q / 2 ^ placeOf q ≤ significand := by
      rw [same, div_le_iff₀ (two_zpow_pos exponent)]
      exact atMost
    have rounded := roundEven_le_of_le (div_nonneg positive.le (two_zpow_pos (placeOf q)).le) scaled
    have short := canonical.short
    omega

/-! ### Products -/

theorem Canonical.mul_eq_nearest {left right : ℕ} {leftExponent rightExponent : ℤ}
    (leftCanonical : Canonical left leftExponent) (rightCanonical : Canonical right rightExponent) :
    mul Format.binary64 (.finite .positive left leftExponent leftCanonical.positive)
        (.finite .positive right rightExponent rightCanonical.positive) =
      nearest (valueOf left leftExponent * valueOf right rightExponent) := by
  have leftPos := leftCanonical.positive
  have rightPos := rightCanonical.positive
  rcases Nat.lt_or_ge (left * right) (2 ^ 52) with short | long
  · -- Neither significand is full, so both factors stand at the lowest place and nothing is lost before the rounding.
    have leftLowest : leftExponent = -1074 := leftCanonical.full.resolve_left fun full => by
      exact absurd short (Nat.not_lt.mpr (full.trans (Nat.le_mul_of_pos_right left rightPos)))
    have rightLowest : rightExponent = -1074 := rightCanonical.full.resolve_left fun full => by
      exact absurd short (Nat.not_lt.mpr (full.trans (Nat.le_mul_of_pos_left right leftPos)))
    have lowest : -1074 ≤ placeOf (valueOf (left * right) (leftExponent + rightExponent)) := le_max_right _ _
    rw [valueOf_mul, ← round_fine (Nat.mul_pos leftPos rightPos) (by omega)]
    rfl
  · exact Number.mul_eq_nearest leftPos rightPos long

/-! ### Portions -/

theorem isFinite_components {sign : Sign} {exponent : BitVec 11} {mantissa : BitVec 52} (notInfinite : exponent ≠ -1#11) :
    (unpack Format.binary64 (packComponents Format.binary64 sign exponent mantissa)).isFinite = true := by
  rw [unpack_components, if_neg notInfinite]
  by_cases lowest : exponent = 0#11
  · rw [if_pos lowest]
    by_cases none : mantissa.toNat = 0
    · rw [dif_pos none]
      rfl
    · rw [dif_neg none]
      rfl
  · rw [if_neg lowest]
    rfl

/-- The bits of a double whose exponent fits are those of a finite double. -/
theorem unpack_pack_isFinite {sign : Sign} {significand : ℕ} {exponent : ℤ} (positive : 0 < significand)
    (high : exponent ≤ 971) :
    (unpack Format.binary64 (pack Format.binary64 (.finite sign significand exponent positive))).isFinite = true := by
  have notInfinite : BitVec.ofNat 11 (exponent + 1075).toNat ≠ -1#11 := by
    intro same
    have fields := congrArg BitVec.toNat same
    rw [BitVec.toNat_ofNat, Nat.mod_eq_of_lt (by omega)] at fields
    have highest : (-1#11).toNat = 2047 := by decide
    omega
  rw [pack_eq, if_neg (by omega)]
  by_cases full : significand.log2 + 1 = 53
  · rw [if_pos full]
    exact isFinite_components notInfinite
  · rw [if_neg full]
    exact isFinite_components (by decide)

theorem unpack_zeroFloat : (0.0 : Float).toModel.unpack = .zero .positive := by
  rw [show (0.0 : Float) = ⟨Float.Model.pack (.zero .positive)⟩ by decide]
  exact unpack_packedZero .positive

theorem one_canonical : Canonical (2 ^ 52) (-52) :=
  ⟨by decide, by decide, by decide, by decide, .inl (Nat.le_refl _)⟩

theorem unpack_oneFloat : (1.0 : Float).toModel.unpack = .finite .positive (2 ^ 52) (-52) one_canonical.positive := by
  rw [show (1.0 : Float) = ⟨Float.Model.pack (.finite .positive (2 ^ 52) (-52) one_canonical.positive)⟩ by decide]
  exact unpack_pack one_canonical

/-- A number above zero as a double. -/
theorem unpack_of_positive {x : Float} (positive : isPositive x = true) :
    ∃ significand exponent, ∃ canonical : Canonical significand exponent,
      x.toModel.unpack = .finite .positive significand exponent canonical.positive := by
  obtain ⟨finite, above⟩ := Bool.and_eq_true_iff.mp positive
  have isFinite : x.toModel.unpack.isFinite = true := finite
  have ordered : UnpackedFloat.lt (0.0 : Float).toModel.unpack x.toModel.unpack = true :=
    of_decide_eq_true (of_decide_eq_true above)
  rw [unpack_zeroFloat] at ordered
  cases unpacked : x.toModel.unpack with
  | notANumber | infinity =>
    rw [unpacked] at isFinite
    contradiction
  | zero sign =>
    rw [unpacked] at ordered
    contradiction
  | finite sign significand exponent significandPos =>
    cases sign with
    | negative =>
      rw [unpacked] at ordered
      contradiction
    | positive => exact ⟨significand, exponent, (unpack_finite unpacked).1, rfl⟩

/-- A double that is not above one has a value of at most one. -/
theorem Canonical.valueOf_le_one {significand : ℕ} {exponent : ℤ} (canonical : Canonical significand exponent)
    (ordered : ((compare exponent (-52)).then (compare significand (2 ^ 52))).isLE = true) :
    valueOf significand exponent ≤ 1 := by
  have short : (significand : ℚ) ≤ 2 ^ 53 := by exact_mod_cast canonical.short.le
  rcases lt_trichotomy exponent (-52) with below | rfl | above
  · calc (significand : ℚ) * 2 ^ exponent
        ≤ 2 ^ 53 * 2 ^ (-53 : ℤ) :=
          mul_le_mul short (zpow_le_zpow_right₀ (by norm_num) (by omega)) (two_zpow_pos _).le (by norm_num)
      _ = 1 := by norm_num
  · have atMost : significand ≤ 2 ^ 52 := by
      rw [compare_eq_iff_eq.mpr rfl, Ordering.eq_then] at ordered
      exact Nat.isLE_compare.mp ordered
    calc (significand : ℚ) * 2 ^ (-52 : ℤ)
        ≤ 2 ^ 52 * 2 ^ (-52 : ℤ) :=
          mul_le_mul_of_nonneg_right (by exact_mod_cast atMost) (two_zpow_pos _).le
      _ = 1 := by norm_num
  · rw [compare_gt_iff_gt.mpr above] at ordered
    contradiction

/-- A number between zero and one as a double. -/
theorem unpack_of_ratio {x : Float} (nonneg : 0.0 ≤ x) (atMost : x ≤ 1.0) :
    (∃ sign, x.toModel.unpack = .zero sign) ∨
      ∃ significand exponent, ∃ canonical : Canonical significand exponent,
        x.toModel.unpack = .finite .positive significand exponent canonical.positive ∧
          valueOf significand exponent ≤ 1 := by
  have low : UnpackedFloat.le (0.0 : Float).toModel.unpack x.toModel.unpack = true := of_decide_eq_true nonneg
  have high : UnpackedFloat.le x.toModel.unpack (1.0 : Float).toModel.unpack = true := of_decide_eq_true atMost
  rw [unpack_zeroFloat] at low
  rw [unpack_oneFloat] at high
  cases unpacked : x.toModel.unpack with
  | notANumber =>
    rw [unpacked] at low
    contradiction
  | infinity sign =>
    rw [unpacked] at low high
    cases sign <;> contradiction
  | zero sign => exact .inl ⟨sign, rfl⟩
  | finite sign significand exponent significandPos =>
    rw [unpacked] at low high
    cases sign with
    | negative => contradiction
    | positive =>
      have canonical := (unpack_finite unpacked).1
      exact .inr ⟨significand, exponent, canonical, rfl, canonical.valueOf_le_one high⟩

theorem portion_finite {whole ratio : Float} (positive : isPositive whole = true) (nonneg : 0.0 ≤ ratio)
    (atMost : ratio ≤ 1.0) : (whole * ratio).isFinite = true := by
  obtain ⟨significand, exponent, canonical, isWhole⟩ := unpack_of_positive positive
  show (unpack Format.binary64 (pack Format.binary64
    (mul Format.binary64 whole.toModel.unpack ratio.toModel.unpack))).isFinite = true
  rcases unpack_of_ratio nonneg atMost with ⟨sign, isRatio⟩ | ⟨part, partExponent, partCanonical, isRatio, atMostOne⟩
  · rw [isWhole, isRatio]
    show (unpack Format.binary64 (packedZero Format.binary64 (.positive * sign))).isFinite = true
    rw [unpack_packedZero]
    rfl
  · rw [isWhole, isRatio, canonical.mul_eq_nearest partCanonical]
    have wholePos := valueOf_pos canonical.positive exponent
    have partPos := valueOf_pos partCanonical.positive partExponent
    have within := canonical.nearest_within (mul_pos wholePos partPos) (mul_le_of_le_one_right wholePos.le atMostOne)
    cases rounded : nearest (valueOf significand exponent * valueOf part partExponent) with
    | notANumber | infinity =>
      rw [rounded] at within
      exact within.elim
    | zero sign =>
      show (unpack Format.binary64 (packedZero Format.binary64 sign)).isFinite = true
      rw [unpack_packedZero]
      rfl
    | finite sign product place productPos =>
      rw [rounded] at within
      exact unpack_pack_isFinite productPos (within.2.trans canonical.high)

end TradingStrategy.Number

import TradingStrategy.Feature.Basic
import TradingStrategy.Proofs.Number.Undefined

/-!
Signs of differences, and sums that start at either zero.

Owns:
- `HasSign`: the sign of a float that is no zero, which neither rounding nor packing changes;
- `lt_of_neg_sub_pos`: of two positive numbers the first is below the second if their difference is below zero;
- `sumOf_alike`: a sum from the negative zero on differs from one that starts at zero in the sign of zero at most.

Only one direction is needed of the second, so it does not matter how a difference is rounded.
-/

namespace TradingStrategy.Number

open Float.Model (Format UnpackedFloat)
open Float.Model.UnpackedFloat

/-! ### Signs -/

/-- The sign of a float that is neither a zero nor no number. -/
def HasSign (sign : Sign) : UnpackedFloat → Prop
  | .infinity own => own = sign
  | .finite own _ _ _ => own = sign
  | .notANumber | .zero _ => False

/-- The sign is the first of the bits. -/
theorem hasSign_unpack {bits : BitVec 64} {sign : Sign} (signed : HasSign sign (unpack Format.binary64 bits)) :
    @unpackSign Format.binary64 bits = sign.toBitVec := by
  have own : ∀ {sign : Sign}, HasSign sign (unpack Format.binary64 bits) →
      Sign.ofBitVec (@unpackSign Format.binary64 bits) = sign := by
    intro sign signed
    rw [← packComponents_unpack bits, unpack_components] at signed
    split at signed
    · split at signed
      · exact signed
      · exact absurd signed id
    · split at signed
      · split at signed
        · exact absurd signed id
        · exact signed
      · exact signed
  rw [← own signed, toBitVec_ofBitVec]

/-- What is packed and has a sign afterwards has had it before. -/
theorem hasSign_of_pack {x : UnpackedFloat} {sign : Sign}
    (signed : HasSign sign (unpack Format.binary64 (pack Format.binary64 x))) : HasSign sign x := by
  cases x with
  | notANumber =>
    rwa [show pack Format.binary64 .notANumber = packedNaN Format.binary64 from rfl, unpack_packedNaN] at signed
  | infinity own =>
    have unpacked : unpack Format.binary64 (packedInfinity Format.binary64 own) = .infinity own :=
      unpack_components own (-1#11) 0#52
    rwa [show pack Format.binary64 (.infinity own) = packedInfinity Format.binary64 own from rfl, unpacked] at signed
  | zero own =>
    rwa [show pack Format.binary64 (.zero own) = packedZero Format.binary64 own from rfl, unpack_packedZero] at signed
  | finite own significand exponent positive =>
    have same := hasSign_unpack signed
    rw [unpackSign_pack positive] at same
    show own = sign
    rw [← ofBitVec_toBitVec own, same, ofBitVec_toBitVec]

theorem hasSign_neg {x : UnpackedFloat} (signed : HasSign .positive x.neg) : HasSign .negative x := by
  cases x with
  | notANumber | zero => exact signed
  | infinity own | finite own =>
    cases own with
    | negative => rfl
    | positive => exact nomatch signed

theorem hasSign_roundWithAccuracy {sign own : Sign} {significand : ℕ} {exponent : ℤ} {accuracy : Accuracy}
    (signed : HasSign sign (roundWithAccuracy Format.binary64 own significand exponent accuracy)) : own = sign := by
  unfold roundWithAccuracy at signed
  dsimp only at signed
  split at signed
  · exact absurd signed id
  · exact signed

/-- A sum with a significand that is not below zero does not become negative by rounding. -/
theorem hasSign_normalize {significand exponent : ℤ} {zeroSign : Sign}
    (signed : HasSign .negative (UnpackedFloat.normalize Format.binary64 significand exponent zeroSign)) :
    significand < 0 := by
  unfold UnpackedFloat.normalize at signed
  split at signed
  · next below => exact Int.compare_eq_lt.mp below
  · exact absurd signed id
  · exact nomatch hasSign_roundWithAccuracy signed

/-! ### Differences -/

/-- Canonical numbers are ordered by their exponents first. -/
theorem Canonical.compare_of_aligned {left right : ℕ} {leftExponent rightExponent : ℤ}
    (leftCanonical : Canonical left leftExponent) (rightCanonical : Canonical right rightExponent)
    (below : left <<< (leftExponent - min leftExponent rightExponent).toNat <
      right <<< (rightExponent - min leftExponent rightExponent).toNat) :
    (compare leftExponent rightExponent).then (compare left right) = .lt := by
  rcases lt_trichotomy leftExponent rightExponent with earlier | rfl | later
  · rw [Int.compare_eq_lt.mpr earlier]
    rfl
  · rw [compare_eq_iff_eq.mpr rfl, Ordering.eq_then]
    exact Nat.compare_eq_lt.mpr (by simpa using below)
  · -- All 53 bits of the left significand are used, so the shifted one is too long to be below.
    exfalso
    have full : 2 ^ 52 ≤ left := leftCanonical.full.resolve_right (by have := rightCanonical.low; omega)
    have shifted : 2 ≤ 2 ^ (leftExponent - rightExponent).toNat :=
      Nat.le_self_pow (by omega) 2
    rw [min_eq_right later.le, sub_self, Int.toNat_zero, Nat.shiftLeft_zero, Nat.shiftLeft_eq] at below
    have short := rightCanonical.short
    have long : 2 ^ 52 * 2 ≤ left * 2 ^ (leftExponent - rightExponent).toNat := Nat.mul_le_mul full shifted
    omega

/-- Of two positive numbers, the first is below the second if the negated difference is above zero. -/
theorem lt_of_neg_sub_pos {a b : Float} (positiveA : isPositive a = true) (positiveB : isPositive b = true)
    (above : 0.0 < -(a - b)) : a < b := by
  obtain ⟨left, leftExponent, leftCanonical, isLeft⟩ := unpack_of_positive positiveA
  obtain ⟨right, rightExponent, rightCanonical, isRight⟩ := unpack_of_positive positiveB
  have ordered : UnpackedFloat.lt (0.0 : Float).toModel.unpack (-(a - b)).toModel.unpack = true :=
    of_decide_eq_true above
  have signed : HasSign .positive (-(a - b)).toModel.unpack := by
    rw [unpack_zeroFloat] at ordered
    generalize (-(a - b)).toModel.unpack = difference at ordered
    cases difference with
    | notANumber | zero => contradiction
    | infinity sign | finite sign =>
      cases sign with
      | positive => rfl
      | negative => contradiction
  have negative : HasSign .negative (sub Format.binary64 a.toModel.unpack b.toModel.unpack) :=
    hasSign_of_pack (hasSign_neg (hasSign_of_pack signed))
  rw [isLeft, isRight] at negative
  have below : ((left <<< (leftExponent - min leftExponent rightExponent).toNat : ℕ) : ℤ) -
      ((right <<< (rightExponent - min leftExponent rightExponent).toNat : ℕ) : ℤ) < 0 := hasSign_normalize negative
  show decide ((a.toModel.unpack.compare b.toModel.unpack == some Ordering.lt) = true) = true
  have compared := leftCanonical.compare_of_aligned rightCanonical (by exact_mod_cast sub_neg.mp below)
  rw [isLeft, isRight, decide_eq_true_iff, beq_iff_eq]
  exact congrArg some compared

/-- What is below a double is at most that double. -/
theorem le_of_lt {a b : Float} (below : a < b) : a ≤ b := by
  have compared : a.toModel.unpack.compare b.toModel.unpack = some .lt :=
    beq_iff_eq.mp (of_decide_eq_true (show decide ((_ == some Ordering.lt) = true) = true from below))
  show decide ((a.toModel.unpack.compare b.toModel.unpack).any (fun order => order.isLE) = true) = true
  rw [compared]
  rfl

/-! ### Sums from either zero -/

/-- Two doubles that are equal but for the sign of zero. -/
def Alike (x y : Float) : Prop :=
  x = y ∨ (∃ sign, x.toModel.unpack = .zero sign) ∧ ∃ sign, y.toModel.unpack = .zero sign

theorem Alike.add {x y : Float} (alike : Alike x y) (z : Float) : Alike (x + z) (y + z) := by
  rcases alike with rfl | ⟨⟨sign, isX⟩, other, isY⟩
  · exact .inl rfl
  have sum (w : Float) :
      w + z = ⟨Float.Model.pack (UnpackedFloat.add Format.binary64 w.toModel.unpack z.toModel.unpack)⟩ := rfl
  cases isZ : z.toModel.unpack with
  | zero last =>
    have isZero (w : Float) (own : Sign) (isW : w.toModel.unpack = .zero own) :
        ∃ sign, (w + z).toModel.unpack = .zero sign := by
      have packed (sign : Sign) : (Float.Model.pack (.zero sign)).unpack = .zero sign := unpack_packedZero sign
      rw [sum, isW, isZ]
      cases own <;> cases last <;> exact ⟨_, packed _⟩
    exact .inr ⟨isZero x sign isX, isZero y other isY⟩
  | notANumber | infinity | finite =>
    left
    rw [sum, sum, isX, isY, isZ]
    rfl

theorem Alike.lt {x y : Float} (alike : Alike x y) (bound : Float) : bound < x ↔ bound < y := by
  rcases alike with rfl | ⟨⟨sign, isX⟩, other, isY⟩
  · rfl
  show decide ((bound.toModel.unpack.compare x.toModel.unpack == some Ordering.lt) = true) = true ↔
    decide ((bound.toModel.unpack.compare y.toModel.unpack == some Ordering.lt) = true) = true
  rw [isX, isY]
  cases bound.toModel.unpack with
  | notANumber | zero => rfl
  | infinity own | finite own => cases own <;> rfl

theorem sumOf_alike (numbers : List Float) : Alike (sumOf numbers) (numbers.foldl (· + ·) 0.0) := by
  have folded : ∀ (numbers : List Float) (x y : Float), Alike x y →
      Alike (numbers.foldl (· + ·) x) (numbers.foldl (· + ·) y) := by
    intro numbers
    induction numbers with
    | nil => exact fun _ _ alike => alike
    | cons first rest inductionHypothesis => exact fun x y alike => inductionHypothesis _ _ (alike.add first)
  refine folded numbers _ _ (.inr ⟨⟨.negative, ?_⟩, .positive, unpack_zeroFloat⟩)
  rw [show (-0.0 : Float) = ⟨Float.Model.pack (.zero .negative)⟩ by decide]
  exact unpack_packedZero .negative

end TradingStrategy.Number

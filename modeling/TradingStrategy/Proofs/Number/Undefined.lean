import Mathlib
import TradingStrategy.Proofs.Number.Sums

/-!
The double that is no number.

Owns:
- that there is one such double, which is the library's;
- that arithmetic passes it on from every operand, and that no ordering holds of it;
- that `least` and `greatest` do not: they give no number only if both operands are none;
- where it comes from in a product, and what is left of an ordering that does not hold.

The first three are equations about `nan`, so that they can be used by simplification.
-/

namespace TradingStrategy.Number

open Float.Model (Format UnpackedFloat)
open Float.Model.UnpackedFloat

/-- It is the one of the library, whose lemmas are used by simplification, too. -/
@[simp]
theorem floatNan_eq : Float.nan = nan := by
  decide

theorem isNaN_iff {x : Float} : x.isNaN = true ↔ x = nan := by
  simp

theorem isNaN_nan : nan.isNaN = true :=
  isNaN_iff.mpr rfl

theorem eq_nan_iff {x : Float} : x = nan ↔ x.toModel.unpack = .notANumber :=
  isNaN_iff.symm.trans UnpackedFloat.isNaN_iff

@[simp]
theorem unpack_nan : nan.toModel.unpack = .notANumber :=
  eq_nan_iff.mp rfl

theorem nan_eq_pack : nan = ⟨Float.Model.pack .notANumber⟩ := by
  decide

/-! ### Arithmetic -/

section Arithmetic

variable (x : Float)

@[simp]
theorem neg_nan : -nan = nan := by
  decide

@[simp]
theorem abs_nan : nan.abs = nan := by
  decide

/-- An operation on unpacked doubles that passes on its first operand if that is no number. -/
theorem packed_nan_left {op : UnpackedFloat → UnpackedFloat → UnpackedFloat}
    (passes : ∀ y, op .notANumber y = .notANumber) :
    (⟨Float.Model.pack (op nan.toModel.unpack x.toModel.unpack)⟩ : Float) = nan := by
  rw [unpack_nan, passes, nan_eq_pack]

theorem packed_nan_right {op : UnpackedFloat → UnpackedFloat → UnpackedFloat}
    (passes : ∀ y, op y .notANumber = .notANumber) :
    (⟨Float.Model.pack (op x.toModel.unpack nan.toModel.unpack)⟩ : Float) = nan := by
  rw [unpack_nan, passes, nan_eq_pack]

@[simp]
theorem nan_add : nan + x = nan :=
  packed_nan_left x fun _ => (rfl : add Format.binary64 .notANumber _ = _)

@[simp]
theorem add_nan : x + nan = nan :=
  packed_nan_right x fun y => show add Format.binary64 y .notANumber = _ by cases y <;> rfl

@[simp]
theorem nan_sub : nan - x = nan :=
  packed_nan_left x fun _ => (rfl : sub Format.binary64 .notANumber _ = _)

@[simp]
theorem sub_nan : x - nan = nan :=
  packed_nan_right x fun y => show sub Format.binary64 y .notANumber = _ by cases y <;> rfl

@[simp]
theorem nan_mul : nan * x = nan :=
  packed_nan_left x fun _ => (rfl : mul Format.binary64 .notANumber _ = _)

@[simp]
theorem mul_nan : x * nan = nan :=
  packed_nan_right x fun y => show mul Format.binary64 y .notANumber = _ by cases y <;> rfl

@[simp]
theorem nan_div : nan / x = nan :=
  packed_nan_left x fun _ => (rfl : div Format.binary64 .notANumber _ = _)

@[simp]
theorem div_nan : x / nan = nan :=
  packed_nan_right x fun y => show div Format.binary64 y .notANumber = _ by cases y <;> rfl

@[simp]
theorem nan_remainder : remainder nan x = nan := by
  simp [remainder]

@[simp]
theorem remainder_nan : remainder x nan = nan := by
  simp [remainder]

@[simp]
theorem roundHalfAway_nan : roundHalfAway nan = nan := by
  decide

/-! ### Orderings -/

@[simp]
theorem not_nan_lt : ¬nan < x := by
  show ¬decide ((nan.toModel.unpack.compare x.toModel.unpack == some Ordering.lt) = true) = true
  rw [unpack_nan]
  exact Bool.false_ne_true

@[simp]
theorem not_lt_nan : ¬x < nan := by
  show ¬decide ((x.toModel.unpack.compare nan.toModel.unpack == some Ordering.lt) = true) = true
  rw [unpack_nan]
  cases x.toModel.unpack <;> exact Bool.false_ne_true

@[simp]
theorem not_nan_le : ¬nan ≤ x := by
  show ¬decide ((nan.toModel.unpack.compare x.toModel.unpack).any (fun order => order.isLE) = true) = true
  rw [unpack_nan]
  exact Bool.false_ne_true

@[simp]
theorem not_le_nan : ¬x ≤ nan := by
  show ¬decide ((x.toModel.unpack.compare nan.toModel.unpack).any (fun order => order.isLE) = true) = true
  rw [unpack_nan]
  cases x.toModel.unpack <;> exact Bool.false_ne_true

@[simp]
theorem nan_beq : (nan == x) = false :=
  Float.nan_beq_eq_false x

end Arithmetic

/-! ### The smaller and the larger one -/

/-- Where an operand that is no number gives way to the other, the result is no number only if both are none. -/
theorem chosen_eq_nan_iff {x y : Float} (second : Prop) [Decidable second] :
    (if x.isNaN then y else if y.isNaN then x else if second then y else x) = nan ↔ x = nan ∧ y = nan := by
  by_cases noX : x = nan
  · simp [noX]
  · by_cases noY : y = nan
    · simp [noY, noX]
    · simp only [isNaN_iff, noX, noY, if_false, false_and, iff_false]
      split
      · exact noY
      · exact noX

theorem least_eq_nan_iff {x y : Float} : least x y = nan ↔ x = nan ∧ y = nan :=
  chosen_eq_nan_iff (y < x)

theorem greatest_eq_nan_iff {x y : Float} : greatest x y = nan ↔ x = nan ∧ y = nan :=
  chosen_eq_nan_iff (x < y)

/-! ### Where it comes from -/

theorem isNumber_iff {x : Float} : IsNumber x ↔ x ≠ nan :=
  not_congr eq_nan_iff.symm

/-- A double is not below another one if that is at most the first, or if one of them is no number. -/
theorem not_lt_iff {x y : Float} : ¬x < y ↔ y ≤ x ∨ x = nan ∨ y = nan := by
  by_cases noX : x = nan
  · simp [noX]
  by_cases noY : y = nan
  · simp [noY]
  rw [← le_iff_not_lt (isNumber_iff.mpr noY) (isNumber_iff.mpr noX)]
  simp [noX, noY]

theorem beq_zero_iff {x : Float} : (x == 0.0) = true ↔ ∃ sign, x.toModel.unpack = .zero sign := by
  show (x.toModel.unpack.compare (0.0 : Float).toModel.unpack == some Ordering.eq) = true ↔ _
  rw [unpack_zeroFloat]
  cases x.toModel.unpack with
  | zero sign => exact ⟨fun _ => ⟨sign, rfl⟩, fun _ => rfl⟩
  | notANumber => exact ⟨fun same => (nomatch same), fun ⟨_, same⟩ => (nomatch same)⟩
  | infinity sign | finite sign =>
    cases sign <;> exact ⟨fun same => (nomatch same), fun ⟨_, same⟩ => (nomatch same)⟩

theorem mul_eq_nan {x y : Float} :
    x * y = nan ↔ mul Format.binary64 x.toModel.unpack y.toModel.unpack = .notANumber := by
  have product : x * y = ⟨Float.Model.pack (mul Format.binary64 x.toModel.unpack y.toModel.unpack)⟩ := rfl
  constructor
  · intro none
    by_contra number
    have isNumber : IsNumber (x * y) := unpack_pack_number number
    exact isNumber_iff.mp isNumber none
  · intro none
    rw [product, none, nan_eq_pack]

/-- The product of a number above zero and another double is no number if that is none, or if an infinite number is
multiplied by a zero. -/
theorem mul_eq_nan_iff {x y : Float} (positive : 0.0 < x) :
    x * y = nan ↔ y = nan ∨ x.isInf = true ∧ (y == 0.0) = true := by
  have ordered : UnpackedFloat.lt (0.0 : Float).toModel.unpack x.toModel.unpack = true := of_decide_eq_true positive
  have infinite : x.isInf = x.toModel.unpack.isInf := rfl
  rw [unpack_zeroFloat] at ordered
  rw [mul_eq_nan, eq_nan_iff, beq_zero_iff, infinite]
  generalize x.toModel.unpack = a at ordered
  generalize y.toModel.unpack = b
  cases a with
  | notANumber | zero => contradiction
  | infinity sign => cases b <;> simp [mul, isInf]
  | finite sign significand exponent significandPos =>
    cases b with
    | notANumber | infinity | zero => simp [mul, isInf]
    | finite other otherSignificand otherExponent otherPos =>
      have number := roundWithAccuracy_number (sign * other) (significand * otherSignificand)
        (exponent + otherExponent) .exact
      simpa [mul, isInf] using number

end TradingStrategy.Number

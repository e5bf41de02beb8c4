import TradingStrategy.Proofs.Number.Portion

/-!
Sums of doubles.

Owns:
- `IsNumber`: the doubles that can be compared, and that the comparison of two of them is total;
- that a finite double added to a number is a number, so that a sum of finite doubles is one, first to last;
- that a sum that is finite was finite before each of its parts.

A sum may be infinite. Only the difference of two infinite doubles is no number.
-/

namespace TradingStrategy.Number

open Float.Model (Format UnpackedFloat)
open Float.Model.UnpackedFloat

/-- A double that is a number, finite or infinite. -/
def IsNumber (x : Float) : Prop :=
  x.toModel.unpack ≠ .notANumber

theorem isNumber_of_finite {x : Float} (finite : x.isFinite = true) : IsNumber x := by
  have isFinite : x.toModel.unpack.isFinite = true := finite
  intro same
  rw [same] at isFinite
  contradiction

/-! ### Comparison -/

/-- Two finite numbers can be compared, and the other way round the answer is the opposite one. -/
theorem compare_finite {a b : UnpackedFloat} (finiteA : a.isFinite = true) (finiteB : b.isFinite = true) :
    ∃ order, a.compare b = some order ∧ b.compare a = some order.swap := by
  have opposite (exponent other : Int) (mantissa otherMantissa : Nat) :
      (compare other exponent).then (compare otherMantissa mantissa) =
        ((compare exponent other).then (compare mantissa otherMantissa)).swap := by
    rw [Ordering.swap_then, ← Std.OrientedCmp.eq_swap, ← Std.OrientedCmp.eq_swap]
  cases a with
  | notANumber | infinity => contradiction
  | zero sign =>
    cases b with
    | notANumber | infinity => contradiction
    | zero other => exact ⟨.eq, rfl, rfl⟩
    | finite other => cases other <;> exact ⟨_, rfl, rfl⟩
  | finite sign mantissa exponent =>
    cases b with
    | notANumber | infinity => contradiction
    | zero other => cases sign <;> exact ⟨_, rfl, rfl⟩
    | finite other otherMantissa otherExponent =>
      cases sign with
      | positive =>
        cases other with
        | positive => exact ⟨_, rfl, congrArg some (opposite exponent otherExponent mantissa otherMantissa)⟩
        | negative => exact ⟨_, rfl, rfl⟩
      | negative =>
        cases other with
        | positive => exact ⟨_, rfl, rfl⟩
        | negative =>
          refine ⟨_, rfl, congrArg some ?_⟩
          rw [opposite exponent otherExponent mantissa otherMantissa]

theorem compare_numbers {a b : UnpackedFloat} (numberA : a ≠ .notANumber) (numberB : b ≠ .notANumber) :
    ∃ order, a.compare b = some order ∧ b.compare a = some order.swap := by
  cases a with
  | notANumber => contradiction
  | infinity sign =>
    cases b with
    | notANumber => contradiction
    | infinity other => cases sign <;> cases other <;> exact ⟨_, rfl, rfl⟩
    | zero | finite => cases sign <;> exact ⟨_, rfl, rfl⟩
  | zero | finite =>
    cases b with
    | notANumber => contradiction
    | infinity other => cases other <;> exact ⟨_, rfl, rfl⟩
    | zero | finite => exact compare_finite rfl rfl

/-- Of two numbers, the first is at most the second if and only if the second is not below it. -/
theorem le_iff_not_lt {a b : Float} (numberA : IsNumber a) (numberB : IsNumber b) : a ≤ b ↔ ¬b < a := by
  obtain ⟨order, forward, backward⟩ := compare_numbers numberA numberB
  show decide ((a.toModel.unpack.compare b.toModel.unpack).any (fun order => order.isLE) = true) = true ↔
    ¬decide ((b.toModel.unpack.compare a.toModel.unpack == some Ordering.lt) = true) = true
  rw [forward, backward]
  cases order <;> decide

/-- Of two numbers, the first is below the second if and only if the second is not at most the first. -/
theorem lt_iff_not_le {a b : Float} (numberA : IsNumber a) (numberB : IsNumber b) : a < b ↔ ¬b ≤ a := by
  rw [le_iff_not_lt numberB numberA, not_not]

theorem isNumber_zero : IsNumber 0.0 :=
  isNumber_of_finite (by decide)

theorem pos_iff_not_le {x : Float} (finite : x.isFinite = true) : 0.0 < x ↔ ¬x ≤ 0.0 :=
  lt_iff_not_le isNumber_zero (isNumber_of_finite finite)

/-- A double from zero to one is finite. -/
theorem finite_of_ratio {x : Float} (nonneg : 0.0 ≤ x) (atMost : x ≤ 1.0) : x.isFinite = true := by
  show x.toModel.unpack.isFinite = true
  rcases unpack_of_ratio nonneg atMost with ⟨sign, isZero⟩ | ⟨significand, exponent, canonical, isFinite, _⟩
  · rw [isZero]
    rfl
  · rw [isFinite]
    rfl

/-! ### Sums -/

theorem roundWithAccuracy_number (sign : Sign) (significand : ℕ) (exponent : ℤ) (accuracy : Accuracy) :
    roundWithAccuracy Format.binary64 sign significand exponent accuracy ≠ .notANumber := by
  intro same
  unfold roundWithAccuracy at same
  dsimp only at same
  obtain ⟨_, same⟩ | ⟨_, same⟩ := dite_eq_iff.mp same
  · contradiction
  · contradiction

theorem normalize_number (significand exponent : ℤ) (zeroSign : Sign) :
    UnpackedFloat.normalize Format.binary64 significand exponent zeroSign ≠ .notANumber := by
  unfold UnpackedFloat.normalize
  split
  · exact roundWithAccuracy_number _ _ _ _
  · simp
  · exact roundWithAccuracy_number _ _ _ _

theorem add_number {a b : UnpackedFloat} (number : a ≠ .notANumber) (finite : b.isFinite = true) :
    add Format.binary64 a b ≠ .notANumber := by
  cases b with
  | notANumber | infinity => contradiction
  | zero other =>
    cases a with
    | notANumber => contradiction
    | infinity | finite => exact fun same => UnpackedFloat.noConfusion same
    | zero sign =>
      show (if (sign == other) = true then UnpackedFloat.zero sign else .zero .positive) ≠ .notANumber
      split <;> simp
  | finite other =>
    cases a with
    | notANumber => contradiction
    | infinity | zero => exact fun same => UnpackedFloat.noConfusion same
    | finite => exact normalize_number _ _ _

/-- What is packed into bits stands for a number if it is one. -/
theorem unpack_pack_number {a : UnpackedFloat} (number : a ≠ .notANumber) :
    unpack Format.binary64 (pack Format.binary64 a) ≠ .notANumber := by
  have infinite (sign : Sign) : unpack Format.binary64 (packedInfinity Format.binary64 sign) ≠ .notANumber := by
    have unpacked : unpack Format.binary64 (packedInfinity Format.binary64 sign) = .infinity sign :=
      unpack_components sign (-1#11) 0#52
    rw [unpacked]
    simp
  cases a with
  | notANumber => contradiction
  | infinity sign => exact infinite sign
  | zero sign =>
    show unpack Format.binary64 (packedZero Format.binary64 sign) ≠ .notANumber
    rw [unpack_packedZero]
    simp
  | finite sign significand exponent positive =>
    by_cases high : exponent ≤ 971
    · have isFinite := @unpack_pack_isFinite sign significand exponent positive high
      intro same
      rw [same] at isFinite
      contradiction
    · rw [pack_overflow positive (by omega)]
      exact infinite sign

theorem isNumber_add {x y : Float} (number : IsNumber x) (finite : y.isFinite = true) : IsNumber (x + y) :=
  unpack_pack_number (add_number number finite)

/-! ### Finite sums -/

theorem add_not_finite {a : UnpackedFloat} (notFinite : a.isFinite = false) (b : UnpackedFloat) :
    (add Format.binary64 a b).isFinite = false := by
  cases a with
  | notANumber => rfl
  | infinity sign =>
    cases b with
    | notANumber | zero | finite => rfl
    | infinity other => cases sign <;> cases other <;> rfl
  | zero | finite => contradiction

/-- What is packed into bits stands for no finite double if it is none. -/
theorem unpack_pack_not_finite {a : UnpackedFloat} (notFinite : a.isFinite = false) :
    (unpack Format.binary64 (pack Format.binary64 a)).isFinite = false := by
  cases a with
  | notANumber => decide
  | infinity sign => cases sign <;> decide
  | zero | finite => contradiction

/-- A sum is finite only if its first part is. -/
theorem finite_of_add {x y : Float} (finite : (x + y).isFinite = true) : x.isFinite = true := by
  cases isFinite : x.isFinite with
  | true => rfl
  | false =>
    have sum : (x + y).isFinite = false := unpack_pack_not_finite (add_not_finite isFinite _)
    rw [sum] at finite
    contradiction

end TradingStrategy.Number

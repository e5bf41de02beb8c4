import TradingStrategy.Number.Decimal
import TradingStrategy.Proofs.Number.Nearest

/-!
Doubles and their bits.

Owns:
- `Canonical`: the significands and exponents that finite doubles have;
- `unpack_finite` and `unpack_pack`: the bits of a finite double, and what they stand for, determine each other.
-/

namespace TradingStrategy.Number

open Float.Model (Format UnpackedFloat)
open Float.Model.UnpackedFloat

/-! ### Fields of the bits -/

theorem mantissa_toNat (bits : BitVec 64) : (@unpackMantissa Format.binary64 bits).toNat = bits.toNat % 2 ^ 52 := by
  rw [unpackMantissa, BitVec.toNat_cast, BitVec.extractLsb_toNat]
  rfl

theorem exponent_toNat (bits : BitVec 64) :
    (@unpackExponent Format.binary64 bits).toNat = (bits.toNat >>> 52) % 2 ^ 11 := by
  rw [unpackExponent, BitVec.toNat_cast, BitVec.extractLsb_toNat]
  rfl

theorem sign_toNat (bits : BitVec 64) : (@unpackSign Format.binary64 bits).toNat = bits.toNat >>> 63 := by
  delta unpackSign
  rw [BitVec.toNat_cast, BitVec.extractLsb_toNat]
  have := bits.isLt
  simp [Nat.shiftRight_eq_div_pow]
  omega

theorem ofBitVec_toBitVec (sign : Sign) : Sign.ofBitVec sign.toBitVec = sign := by
  cases sign <;> rfl

theorem toBitVec_ofBitVec (bit : BitVec 1) : (Sign.ofBitVec bit).toBitVec = bit := by
  revert bit
  decide

theorem unpackSign_packComponents (sign : Sign) (exponent : BitVec 11) (mantissa : BitVec 52) :
    @unpackSign Format.binary64 (packComponents Format.binary64 sign exponent mantissa) = sign.toBitVec := by
  delta unpackSign
  simp only [packComponents, BitVec.extractLsb]
  ext i bound
  grind

theorem packComponents_unpack (bits : BitVec 64) :
    packComponents Format.binary64 (Sign.ofBitVec (@unpackSign Format.binary64 bits))
      (@unpackExponent Format.binary64 bits) (@unpackMantissa Format.binary64 bits) = bits := by
  delta unpackSign
  simp only [packComponents, toBitVec_ofBitVec, unpackExponent, unpackMantissa, BitVec.extractLsb]
  ext i bound
  grind

theorem implicit_toNat (mantissa : BitVec 52) : (1#1 ++ mantissa).toNat = 2 ^ 52 + mantissa.toNat := by
  rw [BitVec.toNat_append, ← Nat.shiftLeft_add_eq_or_of_lt mantissa.isLt]
  rfl

/-! ### Finite doubles -/

/-- The significands and exponents of finite doubles above zero: all 53 bits are used, or the exponent is the lowest
one. -/
structure Canonical (significand : ℕ) (exponent : ℤ) : Prop where
  positive : 0 < significand
  short : significand < 2 ^ 53
  low : -1074 ≤ exponent
  high : exponent ≤ 971
  full : 2 ^ 52 ≤ significand ∨ exponent = -1074

theorem Canonical.field_toNat {significand : ℕ} {exponent : ℤ} (canonical : Canonical significand exponent) :
    (BitVec.ofNat 11 (exponent + 1075).toNat).toNat = (exponent + 1075).toNat := by
  have high := canonical.high
  rw [BitVec.toNat_ofNat, Nat.mod_eq_of_lt (by omega)]

/-- The leading bit is not written. -/
theorem Canonical.mantissa_toNat {significand : ℕ} {exponent : ℤ} (canonical : Canonical significand exponent)
    (allBits : 2 ^ 52 ≤ significand) : (BitVec.ofNat 52 significand).toNat = significand - 2 ^ 52 := by
  have short := canonical.short
  rw [BitVec.toNat_ofNat]
  omega

theorem lowest_mantissa_toNat {significand : ℕ} (short : significand < 2 ^ 52) :
    (BitVec.ofNat 52 significand).toNat = significand := by
  rw [BitVec.toNat_ofNat, Nat.mod_eq_of_lt short]

section Pack

variable {sign : Sign} {significand : ℕ} {exponent : ℤ} (positive : 0 < significand)

theorem pack_eq : pack Format.binary64 (.finite sign significand exponent positive) =
    if 2 ^ 11 ≤ (exponent + 1075).toNat + 1 then packedInfinity Format.binary64 sign
    else if significand.log2 + 1 = 53 then
      packComponents Format.binary64 sign (BitVec.ofNat 11 (exponent + 1075).toNat) (BitVec.ofNat 52 significand)
    else packComponents Format.binary64 sign 0#11 (BitVec.ofNat 52 significand) := by
  have biased : exponent + ((Format.binary64.exponentBias : ℕ) : ℤ) + ((52 : ℕ) : ℤ) = exponent + 1075 := by
    show exponent + ((1023 : ℕ) : ℤ) + ((52 : ℕ) : ℤ) = exponent + 1075
    omega
  rw [← biased]
  rfl

theorem pack_normal (short : significand < 2 ^ 53) (full : 2 ^ 52 ≤ significand) (high : exponent ≤ 971) :
    pack Format.binary64 (.finite sign significand exponent positive) =
      packComponents Format.binary64 sign (BitVec.ofNat 11 (exponent + 1075).toNat) (BitVec.ofNat 52 significand) := by
  have atMost : significand.log2 < 53 := (Nat.log2_lt positive.ne').mpr short
  have atLeast : 52 ≤ significand.log2 := (Nat.le_log2 positive.ne').mpr full
  rw [pack_eq, if_neg (by omega), if_pos (by omega)]

theorem pack_lowest (short : significand < 2 ^ 52) :
    pack Format.binary64 (.finite sign significand (-1074) positive) =
      packComponents Format.binary64 sign 0#11 (BitVec.ofNat 52 significand) := by
  have length : significand.log2 < 52 := (Nat.log2_lt positive.ne').mpr short
  rw [pack_eq, if_neg (by decide), if_neg (by omega)]

theorem pack_overflow (high : 972 ≤ exponent) :
    pack Format.binary64 (.finite sign significand exponent positive) = packedInfinity Format.binary64 sign := by
  rw [pack_eq, if_pos (by omega)]

end Pack

theorem finite_congr {sign otherSign : Sign} {significand otherSignificand : ℕ} {exponent otherExponent : ℤ}
    {positive : 0 < significand} {otherPositive : 0 < otherSignificand} (signs : sign = otherSign)
    (significands : significand = otherSignificand) (exponents : exponent = otherExponent) :
    UnpackedFloat.finite sign significand exponent positive =
      .finite otherSign otherSignificand otherExponent otherPositive := by
  subst signs significands exponents
  rfl

/-- What bits stand for, field by field. -/
theorem unpack_components (sign : Sign) (exponent : BitVec 11) (mantissa : BitVec 52) :
    unpack Format.binary64 (packComponents Format.binary64 sign exponent mantissa) =
      if exponent = -1#11 then if mantissa = 0#52 then .infinity sign else .notANumber
      else if exponent = 0#11 then
        if nonzero : mantissa.toNat = 0 then .zero sign
        else .finite sign mantissa.toNat (-1074) (Nat.pos_of_ne_zero nonzero)
      else .finite sign (2 ^ 52 + mantissa.toNat) (exponent.toNat - 1075) (by omega) := by
  have bias : ((Format.binary64.exponentBias : ℕ) : ℤ) + ((52 : ℕ) : ℤ) = 1075 := by decide
  have signIs := unpackSign_packComponents sign exponent mantissa
  have exponentIs : @unpackExponent Format.binary64 (packComponents Format.binary64 sign exponent mantissa) = exponent :=
    unpackExponent_packComponents
  have mantissaIs : @unpackMantissa Format.binary64 (packComponents Format.binary64 sign exponent mantissa) = mantissa :=
    unpackMantissa_packComponents
  delta unpack
  dsimp only
  by_cases infinite : exponent = -1#11
  · rw [if_pos infinite, if_pos (exponentIs.trans infinite), signIs, ofBitVec_toBitVec, mantissaIs]
  · rw [if_neg infinite, if_neg (fun same => infinite (exponentIs.symm.trans same))]
    by_cases lowest : exponent = 0#11
    · rw [if_pos lowest, if_pos (exponentIs.trans lowest)]
      have noneIff : mantissa = 0#52 ↔ mantissa.toNat = 0 := BitVec.toNat_inj.symm
      by_cases none : mantissa = 0#52
      · rw [dif_pos (noneIff.mp none), dif_pos (mantissaIs.trans none), signIs, ofBitVec_toBitVec]
      · rw [dif_neg (none ∘ noneIff.mpr), dif_neg (fun same => none (mantissaIs.symm.trans same))]
        refine finite_congr ?_ ?_ ?_
        · rw [signIs, ofBitVec_toBitVec]
        · rw [mantissaIs]
        · rw [exponentIs, lowest]
          rfl
    · rw [if_neg lowest, if_neg (fun same => lowest (exponentIs.symm.trans same))]
      refine finite_congr ?_ ?_ ?_
      · rw [signIs, ofBitVec_toBitVec]
      · rw [mantissaIs, implicit_toNat]
      · rw [exponentIs, bias]

/-- The bits of a finite double are determined by what they stand for. -/
theorem unpack_finite {bits : BitVec 64} {sign : Sign} {significand : ℕ} {exponent : ℤ} {positive : 0 < significand}
    (unpacked : unpack Format.binary64 bits = .finite sign significand exponent positive) :
    Canonical significand exponent ∧ pack Format.binary64 (.finite sign significand exponent positive) = bits := by
  rw [← packComponents_unpack bits] at unpacked ⊢
  generalize Sign.ofBitVec (@unpackSign Format.binary64 bits) = bitSign at unpacked ⊢
  generalize @unpackExponent Format.binary64 bits = field at unpacked ⊢
  generalize @unpackMantissa Format.binary64 bits = mantissa at unpacked ⊢
  have mantissaBelow : mantissa.toNat < 2 ^ 52 := mantissa.isLt
  have fieldBelow : field.toNat < 2 ^ 11 := field.isLt
  rw [unpack_components] at unpacked
  by_cases infinite : field = -1#11
  · rw [if_pos infinite] at unpacked
    by_cases none : mantissa = 0#52
    · rw [if_pos none] at unpacked
      contradiction
    · rw [if_neg none] at unpacked
      contradiction
  · have notHighest : field.toNat ≠ 2047 := fun same => infinite (BitVec.eq_of_toNat_eq same)
    rw [if_neg infinite] at unpacked
    by_cases lowest : field = 0#11
    · rw [if_pos lowest] at unpacked
      by_cases none : mantissa.toNat = 0
      · rw [dif_pos none] at unpacked
        contradiction
      · rw [dif_neg none] at unpacked
        obtain ⟨rfl, rfl, rfl⟩ := UnpackedFloat.finite.inj unpacked
        refine ⟨⟨positive, by omega, by decide, by decide, .inr rfl⟩, ?_⟩
        rw [pack_lowest _ mantissaBelow, BitVec.ofNat_toNat, BitVec.setWidth_eq, lowest]
    · have notZero : field.toNat ≠ 0 := fun same => lowest (BitVec.eq_of_toNat_eq same)
      rw [if_neg lowest] at unpacked
      obtain ⟨rfl, rfl, rfl⟩ := UnpackedFloat.finite.inj unpacked
      have sameMantissa : BitVec.ofNat 52 (2 ^ 52 + mantissa.toNat) = mantissa := by
        apply BitVec.eq_of_toNat_eq
        rw [BitVec.toNat_ofNat]
        omega
      refine ⟨⟨positive, by omega, by omega, by omega, .inl (by omega)⟩, ?_⟩
      rw [pack_normal _ (by omega) (by omega) (by omega), sameMantissa, sub_add_cancel, Int.toNat_natCast,
        BitVec.ofNat_toNat, BitVec.setWidth_eq]

theorem unpack_zero {bits : BitVec 64} {sign : Sign} (unpacked : unpack Format.binary64 bits = .zero sign) :
    bits = packedZero Format.binary64 sign := by
  have whole := packComponents_unpack bits
  generalize Sign.ofBitVec (@unpackSign Format.binary64 bits) = bitSign at whole
  generalize @unpackExponent Format.binary64 bits = field at whole
  generalize @unpackMantissa Format.binary64 bits = mantissa at whole
  rw [← whole, unpack_components] at unpacked
  by_cases infinite : field = -1#11
  · rw [if_pos infinite] at unpacked
    by_cases none : mantissa = 0#52
    · rw [if_pos none] at unpacked
      contradiction
    · rw [if_neg none] at unpacked
      contradiction
  · rw [if_neg infinite] at unpacked
    by_cases lowest : field = 0#11
    · rw [if_pos lowest] at unpacked
      by_cases none : mantissa.toNat = 0
      · have noMantissa : mantissa = 0#52 := BitVec.eq_of_toNat_eq none
        rw [dif_pos none] at unpacked
        rw [← whole, lowest, noMantissa, UnpackedFloat.zero.inj unpacked]
        rfl
      · rw [dif_neg none] at unpacked
        contradiction
    · rw [if_neg lowest] at unpacked
      contradiction

/-- What is packed into bits is what they stand for. -/
theorem unpack_pack {sign : Sign} {significand : ℕ} {exponent : ℤ} (canonical : Canonical significand exponent) :
    unpack Format.binary64 (pack Format.binary64 (.finite sign significand exponent canonical.positive)) =
      .finite sign significand exponent canonical.positive := by
  have isField := canonical.field_toNat
  have ⟨positive, short, low, high, full⟩ := canonical
  by_cases allBits : 2 ^ 52 ≤ significand
  · have isMantissa := canonical.mantissa_toNat allBits
    have notInfinite : BitVec.ofNat 11 (exponent + 1075).toNat ≠ -1#11 := by
      intro same
      have sameNat : (exponent + 1075).toNat = 2047 := isField.symm.trans (congrArg BitVec.toNat same)
      omega
    have notLowest : BitVec.ofNat 11 (exponent + 1075).toNat ≠ 0#11 := by
      intro same
      have sameNat : (exponent + 1075).toNat = 0 := isField.symm.trans (congrArg BitVec.toNat same)
      omega
    rw [pack_normal _ short allBits high, unpack_components, if_neg notInfinite, if_neg notLowest]
    exact finite_congr rfl (by omega) (by omega)
  · obtain rfl := full.resolve_left allBits
    have isMantissa := @lowest_mantissa_toNat significand (by omega)
    rw [pack_lowest _ (by omega), unpack_components, if_neg (by decide), if_pos rfl, dif_neg (by omega)]
    exact finite_congr rfl isMantissa rfl

/-! ### Finite doubles as numbers -/

theorem float_of_unpack {x : Float} {sign : Sign} {significand : ℕ} {exponent : ℤ} {positive : 0 < significand}
    (unpacked : x.toModel.unpack = .finite sign significand exponent positive) :
    x = ⟨Float.Model.pack (.finite sign significand exponent positive)⟩ := by
  obtain ⟨⟨bits⟩, valid⟩ := x
  have same : pack Format.binary64 (.finite sign significand exponent positive) = bits := (unpack_finite unpacked).2
  subst same
  rfl

/-- A double that compares equal to a finite one other than zero is that double. -/
theorem eq_of_finite_beq {x y : Float} {sign : Sign} {significand : ℕ} {exponent : ℤ} {positive : 0 < significand}
    (unpacked : x.toModel.unpack = .finite sign significand exponent positive) (same : (y == x) = true) : y = x := by
  have compared : y.toModel.unpack.compare x.toModel.unpack = some .eq :=
    beq_iff_eq.mp (show (y.toModel.unpack.compare x.toModel.unpack == some Ordering.eq) = true from same)
  rw [unpacked] at compared
  have alike : y.toModel.unpack = .finite sign significand exponent positive := by
    generalize y.toModel.unpack = other at compared
    cases other with
    | notANumber => contradiction
    | infinity otherSign => cases otherSign <;> exact nomatch Option.some.inj compared
    | zero otherSign => cases sign <;> exact nomatch Option.some.inj compared
    | finite otherSign otherSignificand otherExponent otherPositive =>
      have ordered : otherSign = sign ∧
          (compare otherExponent exponent).then (compare otherSignificand significand) = .eq := by
        cases otherSign <;> cases sign
        · exact ⟨rfl, Ordering.swap_eq_eq.mp (Option.some.inj compared)⟩
        · exact nomatch Option.some.inj compared
        · exact nomatch Option.some.inj compared
        · exact ⟨rfl, Option.some.inj compared⟩
      obtain ⟨sameExponent, sameSignificand⟩ := Ordering.then_eq_eq.mp ordered.2
      obtain rfl := compare_eq_iff_eq.mp sameExponent
      obtain rfl := compare_eq_iff_eq.mp sameSignificand
      rw [ordered.1]
  rw [float_of_unpack alike, float_of_unpack unpacked]

theorem unpackSign_pack {sign : Sign} {significand : ℕ} {exponent : ℤ} (positive : 0 < significand) :
    @unpackSign Format.binary64 (pack Format.binary64 (.finite sign significand exponent positive)) = sign.toBitVec := by
  rw [pack_eq]
  split
  · exact unpackSign_packComponents _ _ _
  · split <;> exact unpackSign_packComponents _ _ _

theorem isNegative_iff {x : Float} : isNegative x = true ↔ @unpackSign Format.binary64 x.toBits.toBitVec = 1#1 := by
  have shifted : (x.toBits >>> 63).toNat = x.toBits.toBitVec.toNat >>> 63 := by
    rw [UInt64.toNat_shiftRight]
    rfl
  rw [isNegative, beq_iff_eq, ← UInt64.toNat_inj, ← BitVec.toNat_inj, shifted, sign_toNat]
  rfl

theorem isNegative_of_unpack {x : Float} {sign : Sign} {significand : ℕ} {exponent : ℤ} {positive : 0 < significand}
    (unpacked : x.toModel.unpack = .finite sign significand exponent positive) :
    isNegative x = true ↔ sign = .negative := by
  have packed : _ = x.toBits.toBitVec := (unpack_finite unpacked).2
  rw [isNegative_iff, ← packed, unpackSign_pack]
  cases sign with
  | negative => exact ⟨fun _ => rfl, fun _ => rfl⟩
  | positive => exact ⟨fun same => absurd same (by decide), fun same => nomatch same⟩

/-- A double that is finite and no zero does not compare equal to zero. -/
theorem beq_zero_of_unpack {x : Float} {sign : Sign} {significand : ℕ} {exponent : ℤ} {positive : 0 < significand}
    (unpacked : x.toModel.unpack = .finite sign significand exponent positive) : (x == 0.0) = false := by
  show (x.toModel.unpack.compare (0.0 : Float).toModel.unpack == some Ordering.eq) = false
  rw [unpacked]
  cases sign <;> rfl

theorem float_of_unpack_zero {x : Float} {sign : Sign} (unpacked : x.toModel.unpack = .zero sign) :
    x = ⟨Float.Model.pack (.zero sign)⟩ := by
  obtain ⟨⟨bits⟩, valid⟩ := x
  have same : pack Format.binary64 (.zero sign) = bits := (unpack_zero unpacked).symm
  subst same
  rfl

theorem unpack_packedZero (sign : Sign) : unpack Format.binary64 (packedZero Format.binary64 sign) = .zero sign := by
  rw [packedZero]
  exact unpack_components sign 0 0

/-- The only finite double that has a sign and is not below zero is the negative zero. -/
theorem eq_negativeZero {x : Float} (finite : x.isFinite = true) (negative : isNegative x = true) (notBelow : 0.0 ≤ x) :
    x = -0.0 := by
  have isFinite : x.toModel.unpack.isFinite = true := finite
  have isZero : (0.0 : Float).toModel.unpack = .zero .positive := by
    rw [show (0.0 : Float) = ⟨Float.Model.pack (.zero .positive)⟩ by decide]
    exact unpack_packedZero .positive
  have ordered : UnpackedFloat.le (0.0 : Float).toModel.unpack x.toModel.unpack = true := of_decide_eq_true notBelow
  cases unpacked : x.toModel.unpack with
  | notANumber | infinity =>
    rw [unpacked] at isFinite
    contradiction
  | zero sign =>
    have same := float_of_unpack_zero unpacked
    cases sign with
    | negative => exact same.trans (by decide)
    | positive =>
      rw [same] at negative
      exact absurd negative (by decide)
  | finite sign significand exponent positive =>
    obtain rfl := (isNegative_of_unpack unpacked).mp negative
    rw [isZero, unpacked] at ordered
    contradiction

/-- The significand and the exponent of a finite double are those of its magnitude. -/
theorem ofFloat_eq {x : Float} {sign : Sign} {significand : ℕ} {exponent : ℤ} {positive : 0 < significand}
    (unpacked : x.toModel.unpack = .finite sign significand exponent positive) :
    Binary.ofFloat x = ⟨significand, exponent⟩ := by
  have canonical := (unpack_finite unpacked).1
  have packed : _ = x.toBits.toBitVec := (unpack_finite unpacked).2
  have ⟨_, short, low, high, full⟩ := canonical
  have field := exponent_toNat x.toBits.toBitVec
  have mantissa := mantissa_toNat x.toBits.toBitVec
  show (if (x.toBits.toBitVec.toNat >>> 52) % 2 ^ 11 = 0 then Binary.mk (x.toBits.toBitVec.toNat % 2 ^ 52) (-1074)
    else Binary.mk (2 ^ 52 + x.toBits.toBitVec.toNat % 2 ^ 52)
      (((x.toBits.toBitVec.toNat >>> 52) % 2 ^ 11 : ℕ) - 1075)) = _
  rw [← field, ← mantissa]
  by_cases allBits : 2 ^ 52 ≤ significand
  · rw [← packed, pack_normal _ short allBits high, unpackExponent_packComponents, unpackMantissa_packComponents]
    show (if (BitVec.ofNat 11 (exponent + 1075).toNat).toNat = 0 then _ else
      Binary.mk (2 ^ 52 + (BitVec.ofNat 52 significand).toNat)
        ((BitVec.ofNat 11 (exponent + 1075).toNat).toNat - 1075)) = _
    have isExponent : ((exponent + 1075).toNat : ℤ) - 1075 = exponent := by omega
    rw [canonical.field_toNat, canonical.mantissa_toNat allBits, if_neg (by omega), Nat.add_sub_cancel' allBits,
      isExponent]
  · obtain rfl := full.resolve_left allBits
    rw [← packed, pack_lowest _ (by omega), unpackExponent_packComponents, unpackMantissa_packComponents]
    show (if (0#11).toNat = 0 then Binary.mk (BitVec.ofNat 52 significand).toNat (-1074) else _) = _
    have isZero : (0#11).toNat = 0 := rfl
    rw [lowest_mantissa_toNat (by omega), if_pos isZero]

end TradingStrategy.Number

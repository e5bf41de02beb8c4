import TradingStrategy.Feature.Basic
import TradingStrategy.Proofs.Number.Reading
import TradingStrategy.Proofs.Number.Sums

/-!
Rounding keeps the order.

Owns:
- `onGrid`: the number to which a positive number is rounded, as if exponents had no bound, and that it grows with the
  number and leaves doubles alone;
- `distance`: how far a double is from zero, by which the doubles that are not below zero are ordered;
- that sums and products of such doubles keep the order;
- `midpoint_within`: the middle of two positive numbers lies between them, if their sum is finite.

An inequality of exact values carries over to doubles in three steps: both sides are rounded, rounding keeps the order,
and the side that is a double already is not changed.
-/

namespace TradingStrategy.Number

open Float.Model (Format UnpackedFloat totalExponent)
open Float.Model.UnpackedFloat

/-! ### The grid -/

theorem floor_le_roundEven (v : ℚ) : ⌊v⌋₊ ≤ roundEven v := by
  unfold roundEven
  split
  · exact le_refl _
  · split <;> omega

theorem roundEven_le_succ (v : ℚ) : roundEven v ≤ ⌊v⌋₊ + 1 := by
  unfold roundEven
  split
  · omega
  · split <;> omega

theorem roundEven_natCast (n : ℕ) : roundEven n = n := by
  simp [roundEven]

theorem roundEven_mono {v w : ℚ} (atMost : v ≤ w) : roundEven v ≤ roundEven w := by
  rcases (Nat.floor_mono atMost).lt_or_eq with below | same
  · calc roundEven v ≤ ⌊v⌋₊ + 1 := roundEven_le_succ v
      _ ≤ ⌊w⌋₊ := below
      _ ≤ roundEven w := floor_le_roundEven w
  · -- The whole parts agree, so what is left of the smaller number is not above what is left of the larger one.
    rw [roundEven, roundEven, same]
    split_ifs
    all_goals first | omega | (exfalso; grind)

/-- The number to which a positive number is rounded, as if exponents had no bound. -/
def onGrid (q : ℚ) : ℚ :=
  valueOf (roundEven (q / 2 ^ placeOf q)) (placeOf q)

/-- A number of 53 bits is on the grid. -/
theorem onGrid_valueOf {significand : ℕ} {exponent : ℤ} (positive : 0 < significand) (short : significand < 2 ^ 53)
    (low : -1074 ≤ exponent) : onGrid (valueOf significand exponent) = valueOf significand exponent := by
  have atMost : significand.log2 < 53 := (Nat.log2_lt positive.ne').mpr short
  obtain ⟨place, isPlace⟩ : ∃ place, placeOf (valueOf significand exponent) = place := ⟨_, rfl⟩
  have below : place ≤ exponent := by
    rw [← isPlace, placeOf, log_valueOf positive]
    omega
  have aligned : exponent = ((exponent - place).toNat : ℤ) + place := by omega
  have unit := (two_zpow_pos place).ne'
  have scaled : valueOf significand exponent / 2 ^ place = (significand * 2 ^ (exponent - place).toNat : ℕ) := by
    have powers : (2 : ℚ) ^ exponent = 2 ^ (exponent - place).toNat * 2 ^ place := by
      rw [← zpow_natCast, ← zpow_add₀ (by norm_num), ← aligned]
    rw [valueOf, powers, div_eq_iff unit]
    push_cast
    ring
  rw [onGrid, isPlace, scaled, roundEven_natCast, valueOf, ← scaled, div_mul_cancel₀ _ unit]

theorem Canonical.onGrid {significand : ℕ} {exponent : ℤ} (canonical : Canonical significand exponent) :
    onGrid (valueOf significand exponent) = valueOf significand exponent :=
  onGrid_valueOf canonical.positive canonical.short canonical.low

/-- Twice a double is on the grid, even if it is too large for a double. -/
theorem Canonical.onGrid_double {significand : ℕ} {exponent : ℤ} (canonical : Canonical significand exponent) :
    Number.onGrid (2 * valueOf significand exponent) = 2 * valueOf significand exponent := by
  have doubled : 2 * valueOf significand exponent = valueOf significand (exponent + 1) := by
    rw [valueOf, valueOf, zpow_add_one₀ two_ne_zero]
    ring
  have low := canonical.low
  rw [doubled]
  exact onGrid_valueOf canonical.positive canonical.short (by omega)

theorem valueOf_le_valueOf {left right : ℕ} (atMost : left ≤ right) (exponent : ℤ) :
    valueOf left exponent ≤ valueOf right exponent :=
  mul_le_mul_of_nonneg_right (by exact_mod_cast atMost) (two_zpow_pos exponent).le

theorem valueOf_two_pow (power : ℕ) (exponent : ℤ) : valueOf (2 ^ power) exponent = 2 ^ (power + exponent) := by
  rw [valueOf, zpow_add₀ two_ne_zero, zpow_natCast]
  push_cast
  rfl

theorem onGrid_le {q : ℚ} (positive : 0 < q) : onGrid q ≤ 2 ^ (53 + placeOf q) := by
  have short : roundEven (q / 2 ^ placeOf q) ≤ 2 ^ 53 := by
    apply roundEven_le (div_nonneg positive.le (two_zpow_pos _).le)
    exact_mod_cast scaled_lt positive
  exact (valueOf_le_valueOf short _).trans_eq (valueOf_two_pow 53 _)

/-- Above the lowest place, all 53 bits are used. -/
theorem full_of_placeOf {q : ℚ} (positive : 0 < q) (above : -1074 < placeOf q) :
    2 ^ 52 ≤ roundEven (q / 2 ^ placeOf q) := by
  have place : placeOf q = Int.log 2 q - 52 := by
    unfold placeOf at above ⊢
    omega
  have scaled : ((2 ^ 52 : ℕ) : ℚ) ≤ q / 2 ^ placeOf q := by
    rw [le_div_iff₀ (two_zpow_pos _)]
    calc ((2 ^ 52 : ℕ) : ℚ) * 2 ^ placeOf q = 2 ^ (52 + placeOf q) := valueOf_two_pow 52 _
      _ ≤ q := (zpow_le_iff positive _).mpr (by omega)
  calc 2 ^ 52 = roundEven ((2 ^ 52 : ℕ) : ℚ) := (roundEven_natCast _).symm
    _ ≤ roundEven (q / 2 ^ placeOf q) := roundEven_mono scaled

theorem onGrid_mono {q r : ℚ} (positive : 0 < q) (atMost : q ≤ r) : onGrid q ≤ onGrid r := by
  rcases (placeOf_mono positive atMost).lt_or_eq with below | same
  · have lowest : -1074 ≤ placeOf q := le_max_right _ _
    have full := full_of_placeOf (positive.trans_le atMost) (lowest.trans_lt below)
    calc onGrid q ≤ 2 ^ (53 + placeOf q) := onGrid_le positive
      _ ≤ 2 ^ (52 + placeOf r) := zpow_le_zpow_right₀ (by norm_num) (by omega)
      _ = valueOf (2 ^ 52) (placeOf r) := (valueOf_two_pow 52 _).symm
      _ ≤ onGrid r := valueOf_le_valueOf full _
  · rw [onGrid, onGrid, same]
    exact valueOf_le_valueOf
      (roundEven_mono (div_le_div_of_nonneg_right atMost (two_zpow_pos _).le)) _

/-! ### Distances from zero -/

/-- How far a double is from zero. An infinite one is further away than all numbers. -/
def distance : UnpackedFloat → WithTop ℚ
  | .zero _ => 0
  | .finite _ significand exponent _ => (valueOf significand exponent : ℚ)
  | .infinity _ | .notANumber => ⊤

/-- The doubles that are not below zero. -/
def NotBelowZero : UnpackedFloat → Prop
  | .zero _ => True
  | .finite sign significand exponent _ => sign = .positive ∧ Canonical significand exponent
  | .infinity sign => sign = .positive
  | .notANumber => False

theorem nonneg_iff {x : Float} : 0.0 ≤ x ↔ NotBelowZero x.toModel.unpack := by
  show decide (UnpackedFloat.le (0.0 : Float).toModel.unpack x.toModel.unpack = true) = true ↔ _
  rw [decide_eq_true_iff, unpack_zeroFloat]
  cases unpacked : x.toModel.unpack with
  | notANumber => exact ⟨fun le => (nomatch le), fun none => none.elim⟩
  | zero sign => exact ⟨fun _ => trivial, fun _ => rfl⟩
  | infinity sign =>
    cases sign with
    | positive => exact ⟨fun _ => rfl, fun _ => rfl⟩
    | negative => exact ⟨fun le => (nomatch le), fun same => (nomatch same)⟩
  | finite sign significand exponent positive =>
    cases sign with
    | positive => exact ⟨fun _ => ⟨rfl, (unpack_finite unpacked).1⟩, fun _ => rfl⟩
    | negative => exact ⟨fun le => (nomatch le), fun same => (nomatch same.1)⟩

theorem isNumber_of_nonneg {x : Float} (nonneg : 0.0 ≤ x) : IsNumber x := by
  intro none
  rw [nonneg_iff, none] at nonneg
  exact nonneg

theorem Canonical.valueOf_lt_of_exponent {left right : ℕ} {leftExponent rightExponent : ℤ}
    (leftCanonical : Canonical left leftExponent) (rightCanonical : Canonical right rightExponent)
    (below : leftExponent < rightExponent) : valueOf left leftExponent < valueOf right rightExponent := by
  have lowest := leftCanonical.low
  have full : 2 ^ 52 ≤ right := rightCanonical.full.resolve_right (by omega)
  have short : (left : ℚ) < (2 ^ 53 : ℕ) := by exact_mod_cast leftCanonical.short
  calc valueOf left leftExponent < valueOf (2 ^ 53) leftExponent :=
        mul_lt_mul_of_pos_right short (two_zpow_pos _)
    _ = 2 ^ (53 + leftExponent) := valueOf_two_pow 53 _
    _ ≤ 2 ^ (52 + rightExponent) := zpow_le_zpow_right₀ (by norm_num) (by omega)
    _ = valueOf (2 ^ 52) rightExponent := (valueOf_two_pow 52 _).symm
    _ ≤ valueOf right rightExponent := valueOf_le_valueOf full _

/-- Canonical numbers, which are compared by their exponents first, are compared by their values. -/
theorem Canonical.isLE_iff {left right : ℕ} {leftExponent rightExponent : ℤ}
    (leftCanonical : Canonical left leftExponent) (rightCanonical : Canonical right rightExponent) :
    ((compare leftExponent rightExponent).then (compare left right)).isLE = true ↔
      valueOf left leftExponent ≤ valueOf right rightExponent := by
  rcases lt_trichotomy leftExponent rightExponent with earlier | rfl | later
  · rw [compare_lt_iff_lt.mpr earlier]
    exact ⟨fun _ => (leftCanonical.valueOf_lt_of_exponent rightCanonical earlier).le, fun _ => rfl⟩
  · rw [compare_eq_iff_eq.mpr rfl, Ordering.eq_then, Nat.isLE_compare, valueOf, valueOf,
      mul_le_mul_iff_of_pos_right (two_zpow_pos leftExponent), Nat.cast_le]
  · rw [compare_gt_iff_gt.mpr later]
    have above := rightCanonical.valueOf_lt_of_exponent leftCanonical later
    exact ⟨fun same => by contradiction, fun atMost => absurd atMost (not_le.mpr above)⟩

theorem valueOf_nonneg (significand : ℕ) (exponent : ℤ) : 0 ≤ valueOf significand exponent :=
  mul_nonneg (Nat.cast_nonneg _) (two_zpow_pos exponent).le

/-- Doubles that are not below zero are ordered by their distances from it. -/
theorem le_iff_distance {x y : Float} (nonnegX : 0.0 ≤ x) (nonnegY : 0.0 ≤ y) :
    x ≤ y ↔ distance x.toModel.unpack ≤ distance y.toModel.unpack := by
  show decide ((x.toModel.unpack.compare y.toModel.unpack).any (fun order => order.isLE) = true) = true ↔ _
  rw [decide_eq_true_iff]
  rw [nonneg_iff] at nonnegX nonnegY
  generalize x.toModel.unpack = a at nonnegX ⊢
  generalize y.toModel.unpack = b at nonnegY ⊢
  cases a with
  | notANumber => exact nonnegX.elim
  | infinity sign =>
    obtain rfl : sign = .positive := nonnegX
    cases b with
    | notANumber => exact nonnegY.elim
    | infinity other =>
      obtain rfl : other = .positive := nonnegY
      exact ⟨fun _ => le_refl _, fun _ => rfl⟩
    | zero other => exact ⟨fun same => (nomatch same), fun atMost => (WithTop.coe_ne_top (top_le_iff.mp atMost)).elim⟩
    | finite other significand exponent positive =>
      exact ⟨fun same => (nomatch same), fun atMost => (WithTop.coe_ne_top (top_le_iff.mp atMost)).elim⟩
  | zero sign =>
    cases b with
    | notANumber => exact nonnegY.elim
    | infinity other =>
      obtain rfl : other = .positive := nonnegY
      exact ⟨fun _ => le_top, fun _ => rfl⟩
    | zero other => exact ⟨fun _ => le_refl _, fun _ => rfl⟩
    | finite other significand exponent positive =>
      obtain rfl : other = .positive := nonnegY.1
      exact ⟨fun _ => WithTop.coe_le_coe.mpr (valueOf_nonneg significand exponent), fun _ => rfl⟩
  | finite sign left leftExponent leftPos =>
    obtain ⟨rfl, leftCanonical⟩ := nonnegX
    cases b with
    | notANumber => exact nonnegY.elim
    | infinity other =>
      obtain rfl : other = .positive := nonnegY
      exact ⟨fun _ => le_top, fun _ => rfl⟩
    | zero other =>
      refine ⟨fun same => (nomatch same), fun atMost => ?_⟩
      exact absurd (WithTop.coe_le_coe.mp atMost) (not_le.mpr (valueOf_pos leftPos leftExponent))
    | finite other right rightExponent rightPos =>
      obtain ⟨rfl, rightCanonical⟩ := nonnegY
      exact (leftCanonical.isLE_iff rightCanonical).trans WithTop.coe_le_coe.symm

/-! ### Rounded numbers -/

/-- How far the double is from zero to which a positive number is rounded. -/
def rounding (q : ℚ) : WithTop ℚ :=
  if onGrid q < 2 ^ (1024 : ℤ) then (onGrid q : ℚ) else ⊤

theorem onGrid_of_rounding {q r : ℚ} (isFinite : rounding q = (r : WithTop ℚ)) : onGrid q = r := by
  unfold rounding at isFinite
  split at isFinite
  · exact WithTop.coe_inj.mp isFinite
  · exact (WithTop.top_ne_coe isFinite).elim

theorem rounding_mono {q r : ℚ} (positive : 0 < q) (atMost : q ≤ r) : rounding q ≤ rounding r := by
  have grown := onGrid_mono positive atMost
  unfold rounding
  by_cases fits : onGrid r < 2 ^ (1024 : ℤ)
  · rw [if_pos fits, if_pos (grown.trans_lt fits)]
    exact WithTop.coe_le_coe.mpr grown
  · rw [if_neg fits]
    exact le_top

theorem Canonical.valueOf_lt {significand : ℕ} {exponent : ℤ} (canonical : Canonical significand exponent) :
    valueOf significand exponent < 2 ^ (1024 : ℤ) := by
  have short : (significand : ℚ) < (2 ^ 53 : ℕ) := by exact_mod_cast canonical.short
  have high := canonical.high
  calc valueOf significand exponent < valueOf (2 ^ 53) exponent := mul_lt_mul_of_pos_right short (two_zpow_pos _)
    _ = 2 ^ (53 + exponent) := valueOf_two_pow 53 _
    _ ≤ 2 ^ (1024 : ℤ) := zpow_le_zpow_right₀ (by norm_num) (by omega)

/-- A double is not changed by rounding. -/
theorem Canonical.rounding {significand : ℕ} {exponent : ℤ} (canonical : Canonical significand exponent) :
    Number.rounding (valueOf significand exponent) = (valueOf significand exponent : ℚ) := by
  rw [Number.rounding, canonical.onGrid, if_pos canonical.valueOf_lt]

/-- A double near a positive number is a zero or has a canonical significand, but for the bound of its exponent. -/
theorem nearest_cases {q : ℚ} (positive : 0 < q) :
    nearest q = .zero .positive ∧ onGrid q = 0 ∨
      ∃ significand exponent, ∃ nonzero : 0 < significand,
        nearest q = .finite .positive significand exponent nonzero ∧ onGrid q = valueOf significand exponent ∧
          significand < 2 ^ 53 ∧ -1074 ≤ exponent ∧ (2 ^ 52 ≤ significand ∨ exponent = -1074) := by
  have lowest : -1074 ≤ placeOf q := le_max_right _ _
  have short : roundEven (q / 2 ^ placeOf q) ≤ 2 ^ 53 := by
    apply roundEven_le (div_nonneg positive.le (two_zpow_pos _).le)
    exact_mod_cast scaled_lt positive
  have full : 2 ^ 52 ≤ roundEven (q / 2 ^ placeOf q) ∨ placeOf q = -1074 := by
    rcases lowest.lt_or_eq with above | same
    · exact .inl (full_of_placeOf positive above)
    · exact .inr same.symm
  unfold nearest onGrid
  by_cases nothing : roundEven (q / 2 ^ placeOf q) = 0
  · rw [dif_pos nothing, nothing]
    exact .inl ⟨rfl, by simp [valueOf]⟩
  rw [dif_neg nothing]
  by_cases fits : roundEven (q / 2 ^ placeOf q) < 2 ^ 53
  · rw [if_pos fits]
    exact .inr ⟨_, _, Nat.pos_of_ne_zero nothing, rfl, rfl, fits, lowest, full⟩
  · have same : roundEven (q / 2 ^ placeOf q) = 2 ^ 53 := by omega
    rw [if_neg fits, same]
    refine .inr ⟨_, _, by decide, rfl, ?_, by decide, by omega, .inl (le_refl _)⟩
    rw [valueOf_two_pow, valueOf_two_pow]
    congr 1
    push_cast
    ring

/-- What is read back of a float that is packed into bits. -/
def repacked (a : UnpackedFloat) : UnpackedFloat :=
  unpack Format.binary64 (pack Format.binary64 a)

theorem repacked_infinity (sign : Sign) : repacked (.infinity sign) = .infinity sign :=
  unpack_components sign (-1#11) 0#52

theorem repacked_zero (sign : Sign) : repacked (.zero sign) = .zero sign :=
  unpack_packedZero sign

/-- The double to which a positive number is rounded is not below zero, and its distance from zero is the rounded one. -/
theorem repacked_nearest {q : ℚ} (positive : 0 < q) :
    NotBelowZero (repacked (nearest q)) ∧ distance (repacked (nearest q)) = rounding q := by
  rcases nearest_cases positive with ⟨isZero, grid⟩ | ⟨significand, exponent, nonzero, isFinite, grid, short, low, full⟩
  · rw [isZero, repacked_zero, rounding, grid, if_pos (two_zpow_pos 1024)]
    exact ⟨trivial, rfl⟩
  · rw [isFinite, rounding, grid]
    by_cases high : exponent ≤ 971
    · have canonical : Canonical significand exponent := ⟨nonzero, short, low, high, full⟩
      rw [repacked, unpack_pack canonical, if_pos canonical.valueOf_lt]
      exact ⟨⟨rfl, canonical⟩, rfl⟩
    · have infinite : repacked (.finite .positive significand exponent nonzero) = .infinity .positive := by
        rw [repacked, pack_overflow nonzero (by omega)]
        exact repacked_infinity .positive
      have overflow : ¬valueOf significand exponent < 2 ^ (1024 : ℤ) := by
        rw [not_lt]
        calc (2 : ℚ) ^ (1024 : ℤ) ≤ 2 ^ (52 + exponent) := zpow_le_zpow_right₀ (by norm_num) (by omega)
          _ = valueOf (2 ^ 52) exponent := (valueOf_two_pow 52 _).symm
          _ ≤ valueOf significand exponent := valueOf_le_valueOf (full.resolve_right (by omega)) _
      rw [infinite, if_neg overflow]
      exact ⟨rfl, rfl⟩

/-! ### Sums -/

/-- An exact value is rounded to the nearest double at any exponent: one above its place is lowered before. -/
theorem round_eq_nearest {significand : ℕ} (positive : 0 < significand) (exponent : ℤ) :
    UnpackedFloat.round Format.binary64 .positive significand exponent = nearest (valueOf significand exponent) := by
  obtain ⟨count, isCount⟩ : ∃ count : ℕ, (exponent - Format.binary64.targetExponent
    (totalExponent significand exponent)).toNat = count := ⟨_, rfl⟩
  have target : Format.binary64.targetExponent (totalExponent significand exponent) =
      placeOf (valueOf significand exponent) := by
    rw [binary64_target, totalExponent, placeOf, log_valueOf positive]
    omega
  have lowered : UnpackedFloat.round Format.binary64 .positive significand exponent =
      roundWithAccuracy Format.binary64 .positive (significand <<< count) (exponent - count) .exact := by
    rw [← isCount]
    rfl
  have shifted : 0 < significand <<< count := by
    rw [Nat.shiftLeft_eq]
    positivity
  rw [lowered, ← valueOf_shiftLeft significand count exponent]
  apply round_fine shifted
  rw [valueOf_shiftLeft, ← target]
  omega

theorem valueOf_add (left right : ℕ) (exponent : ℤ) :
    valueOf (left + right) exponent = valueOf left exponent + valueOf right exponent := by
  unfold valueOf
  push_cast
  ring

theorem add_eq_nearest {left right : ℕ} {leftExponent rightExponent : ℤ} (leftPos : 0 < left) (rightPos : 0 < right) :
    add Format.binary64 (.finite .positive left leftExponent leftPos) (.finite .positive right rightExponent rightPos) =
      nearest (valueOf left leftExponent + valueOf right rightExponent) := by
  obtain ⟨lower, isLower⟩ : ∃ lower, min leftExponent rightExponent = lower := ⟨_, rfl⟩
  obtain ⟨leftCount, isLeft⟩ : ∃ count : ℕ, (leftExponent - lower).toNat = count := ⟨_, rfl⟩
  obtain ⟨rightCount, isRight⟩ : ∃ count : ℕ, (rightExponent - lower).toNat = count := ⟨_, rfl⟩
  have aligned : add Format.binary64 (.finite .positive left leftExponent leftPos)
      (.finite .positive right rightExponent rightPos) = UnpackedFloat.normalize Format.binary64
        ((left <<< leftCount + right <<< rightCount : ℕ) : ℤ) lower .positive := by
    rw [← isLeft, ← isRight, ← isLower]
    rfl
  have total : 0 < left <<< leftCount + right <<< rightCount := by
    have shifted : 0 < left <<< leftCount := by
      rw [Nat.shiftLeft_eq]
      positivity
    exact Nat.add_pos_left shifted _
  have leftShifted := valueOf_shiftLeft left leftCount leftExponent
  have rightShifted := valueOf_shiftLeft right rightCount rightExponent
  rw [show leftExponent - leftCount = lower by omega] at leftShifted
  rw [show rightExponent - rightCount = lower by omega] at rightShifted
  rw [aligned, ← leftShifted, ← rightShifted, ← valueOf_add, ← round_eq_nearest total]
  generalize left <<< leftCount + right <<< rightCount = significand at total
  unfold UnpackedFloat.normalize
  rw [compare_gt_iff_gt.mpr (by exact_mod_cast total : (significand : ℤ) > 0)]
  rfl

/-- Doubles that are not below zero are what they are packed into. -/
theorem NotBelowZero.repacked {a : UnpackedFloat} (notBelow : NotBelowZero a) : Number.repacked a = a := by
  cases a with
  | notANumber => exact notBelow.elim
  | infinity sign => exact repacked_infinity sign
  | zero sign => exact repacked_zero sign
  | finite sign significand exponent positive => exact unpack_pack notBelow.2

theorem distance_nonneg (a : UnpackedFloat) : 0 ≤ distance a := by
  cases a with
  | notANumber | infinity => exact le_top
  | zero => exact le_refl _
  | finite sign significand exponent => exact WithTop.coe_le_coe.mpr (valueOf_nonneg significand exponent)

/-- What bounds two floats from above. -/
structure Bounds (sum a b : UnpackedFloat) : Prop where
  notBelow : NotBelowZero sum
  left : distance a ≤ distance sum
  right : distance b ≤ distance sum

theorem NotBelowZero.add {a b : UnpackedFloat} (left : NotBelowZero a) (right : NotBelowZero b) :
    Bounds (Number.repacked (UnpackedFloat.add Format.binary64 a b)) a b := by
  have settled {sum : UnpackedFloat} (isSum : UnpackedFloat.add Format.binary64 a b = sum) (bounds : Bounds sum a b) :
      Bounds (Number.repacked (UnpackedFloat.add Format.binary64 a b)) a b := by
    rw [isSum, bounds.notBelow.repacked]
    exact bounds
  cases a with
  | notANumber => exact left.elim
  | infinity sign =>
    obtain rfl : sign = .positive := left
    cases b with
    | notANumber => exact right.elim
    | infinity other =>
      obtain rfl : other = .positive := right
      exact settled rfl ⟨rfl, le_top, le_top⟩
    | zero | finite => exact settled rfl ⟨rfl, le_top, le_top⟩
  | zero sign =>
    cases b with
    | notANumber => exact right.elim
    | infinity other => exact settled rfl ⟨right, le_top, le_top⟩
    | zero other => cases sign <;> cases other <;> exact settled rfl ⟨trivial, le_refl _, le_refl _⟩
    | finite other significand exponent positive =>
      exact settled rfl ⟨right, distance_nonneg (.finite other significand exponent positive), le_refl _⟩
  | finite sign significand exponent positive =>
    cases b with
    | notANumber => exact right.elim
    | infinity other => exact settled rfl ⟨right, le_top, le_top⟩
    | zero other => exact settled rfl ⟨left, le_refl _, distance_nonneg (.finite sign significand exponent positive)⟩
    | finite other otherSignificand otherExponent otherPos =>
      obtain ⟨rfl, leftCanonical⟩ := left
      obtain ⟨rfl, rightCanonical⟩ := right
      have leftPos := valueOf_pos positive exponent
      have rightPos := valueOf_pos otherPos otherExponent
      obtain ⟨notBelow, isDistance⟩ := repacked_nearest (add_pos leftPos rightPos)
      rw [add_eq_nearest positive otherPos]
      refine ⟨notBelow, ?_, ?_⟩
      · rw [isDistance]
        exact leftCanonical.rounding.symm.trans_le (rounding_mono leftPos (le_add_of_nonneg_right rightPos.le))
      · rw [isDistance]
        exact rightCanonical.rounding.symm.trans_le (rounding_mono rightPos (le_add_of_nonneg_left leftPos.le))

/-- The sum of doubles that are not below zero is not below either of them. -/
theorem le_add {x y : Float} (nonnegX : 0.0 ≤ x) (nonnegY : 0.0 ≤ y) : 0.0 ≤ x + y ∧ x ≤ x + y ∧ y ≤ x + y := by
  have bounds := (nonneg_iff.mp nonnegX).add (nonneg_iff.mp nonnegY)
  have nonneg : 0.0 ≤ x + y := nonneg_iff.mpr bounds.notBelow
  exact ⟨nonneg, (le_iff_distance nonnegX nonneg).mpr bounds.left, (le_iff_distance nonnegY nonneg).mpr bounds.right⟩

theorem le_trans_of_nonneg {x y z : Float} (nonnegX : 0.0 ≤ x) (nonnegY : 0.0 ≤ y) (nonnegZ : 0.0 ≤ z) (first : x ≤ y)
    (second : y ≤ z) : x ≤ z := by
  rw [le_iff_distance nonnegX nonnegY] at first
  rw [le_iff_distance nonnegY nonnegZ] at second
  rw [le_iff_distance nonnegX nonnegZ]
  exact first.trans second

/-- A sum from a double on that is not below zero, over such doubles, is not below any of them. -/
theorem le_foldl_add {numbers : List Float} (nonneg : ∀ x ∈ numbers, 0.0 ≤ x) {start : Float} (startNonneg : 0.0 ≤ start) :
    0.0 ≤ numbers.foldl (· + ·) start ∧ start ≤ numbers.foldl (· + ·) start ∧
      ∀ x ∈ numbers, x ≤ numbers.foldl (· + ·) start := by
  induction numbers generalizing start with
  | nil =>
    have reflexive : start ≤ start := (le_iff_distance startNonneg startNonneg).mpr (le_refl _)
    exact ⟨startNonneg, reflexive, fun x member => absurd member List.not_mem_nil⟩
  | cons first rest inductionHypothesis =>
    have firstNonneg := nonneg first List.mem_cons_self
    obtain ⟨sumNonneg, aboveStart, aboveFirst⟩ := le_add startNonneg firstNonneg
    obtain ⟨totalNonneg, aboveSum, aboveRest⟩ :=
      inductionHypothesis (fun x member => nonneg x (List.mem_cons_of_mem first member)) sumNonneg
    refine ⟨totalNonneg, le_trans_of_nonneg startNonneg sumNonneg totalNonneg aboveStart aboveSum, ?_⟩
    intro x member
    rcases List.mem_cons.mp member with rfl | member
    · exact le_trans_of_nonneg firstNonneg sumNonneg totalNonneg aboveFirst aboveSum
    · exact aboveRest x member

theorem le_sumOf {numbers : List Float} (nonneg : ∀ x ∈ numbers, 0.0 ≤ x) :
    0.0 ≤ sumOf numbers ∧ ∀ x ∈ numbers, x ≤ sumOf numbers := by
  obtain ⟨sumNonneg, _, members⟩ := le_foldl_add nonneg (by decide : (0.0 : Float) ≤ -0.0)
  exact ⟨sumNonneg, members⟩

/-! ### Products -/

theorem Canonical.mul_notBelowZero {significand : ℕ} {exponent : ℤ} (canonical : Canonical significand exponent)
    {a : UnpackedFloat} (notBelow : NotBelowZero a) : NotBelowZero (repacked
      (mul Format.binary64 (.finite .positive significand exponent canonical.positive) a)) := by
  cases a with
  | notANumber => exact notBelow.elim
  | infinity sign =>
    obtain rfl : sign = .positive := notBelow
    have product : repacked (mul Format.binary64 (.finite .positive significand exponent canonical.positive)
        (.infinity .positive)) = .infinity .positive := repacked_infinity .positive
    rw [product]
    rfl
  | zero sign =>
    have product : repacked (mul Format.binary64 (.finite .positive significand exponent canonical.positive)
        (.zero sign)) = .zero (.positive * sign) := repacked_zero _
    rw [product]
    trivial
  | finite sign part place partPos =>
    obtain ⟨rfl, partCanonical⟩ := notBelow
    rw [canonical.mul_eq_nearest partCanonical]
    exact (repacked_nearest (mul_pos (valueOf_pos canonical.positive exponent) (valueOf_pos partPos place))).1

theorem Canonical.mul_distance_mono {significand : ℕ} {exponent : ℤ} (canonical : Canonical significand exponent)
    {a b : UnpackedFloat} (left : NotBelowZero a) (right : NotBelowZero b) (atMost : distance a ≤ distance b) :
    distance (repacked (mul Format.binary64 (.finite .positive significand exponent canonical.positive) a)) ≤
      distance (repacked (mul Format.binary64 (.finite .positive significand exponent canonical.positive) b)) := by
  have infinite : distance (repacked (mul Format.binary64 (.finite .positive significand exponent canonical.positive)
      (.infinity .positive))) = ⊤ := congrArg distance (repacked_infinity .positive)
  have wholePos := valueOf_pos canonical.positive exponent
  cases b with
  | notANumber => exact right.elim
  | infinity other =>
    obtain rfl : other = .positive := right
    rw [infinite]
    exact le_top
  | zero other =>
    cases a with
    | notANumber => exact left.elim
    | infinity => exact (WithTop.coe_ne_top (top_le_iff.mp atMost)).elim
    | zero sign =>
      have product : repacked (mul Format.binary64 (.finite .positive significand exponent canonical.positive)
          (.zero sign)) = .zero (.positive * sign) := repacked_zero _
      rw [product]
      exact distance_nonneg _
    | finite sign part place partPos =>
      exact absurd (WithTop.coe_le_coe.mp atMost) (not_le.mpr (valueOf_pos partPos place))
  | finite other larger largerPlace largerPos =>
    obtain ⟨rfl, largerCanonical⟩ := right
    have largerDistance := (repacked_nearest (mul_pos wholePos (valueOf_pos largerPos largerPlace))).2
    cases a with
    | notANumber => exact left.elim
    | infinity => exact (WithTop.coe_ne_top (top_le_iff.mp atMost)).elim
    | zero sign =>
      have product : repacked (mul Format.binary64 (.finite .positive significand exponent canonical.positive)
          (.zero sign)) = .zero (.positive * sign) := repacked_zero _
      rw [product]
      exact distance_nonneg _
    | finite sign part place partPos =>
      obtain ⟨rfl, partCanonical⟩ := left
      have partValue := mul_pos wholePos (valueOf_pos partPos place)
      rw [canonical.mul_eq_nearest partCanonical, canonical.mul_eq_nearest largerCanonical, largerDistance,
        (repacked_nearest partValue).2]
      exact rounding_mono partValue (mul_le_mul_of_nonneg_left (WithTop.coe_le_coe.mp atMost) wholePos.le)

section Products

variable {whole x y : Float}

theorem unpack_mul {significand : ℕ} {exponent : ℤ} {nonzero : 0 < significand}
    (isWhole : whole.toModel.unpack = .finite .positive significand exponent nonzero) (x : Float) :
    (whole * x).toModel.unpack =
      repacked (mul Format.binary64 (.finite .positive significand exponent nonzero) x.toModel.unpack) := by
  rw [← isWhole]
  rfl

theorem nonneg_mul (positive : isPositive whole = true) (nonneg : 0.0 ≤ x) : 0.0 ≤ whole * x := by
  obtain ⟨significand, exponent, canonical, isWhole⟩ := unpack_of_positive positive
  rw [nonneg_iff, unpack_mul isWhole]
  exact canonical.mul_notBelowZero (nonneg_iff.mp nonneg)

/-- A number above zero times a larger double is the larger product. -/
theorem mul_le_mul_left (positive : isPositive whole = true) (nonnegX : 0.0 ≤ x) (nonnegY : 0.0 ≤ y) (atMost : x ≤ y) :
    whole * x ≤ whole * y := by
  obtain ⟨significand, exponent, canonical, isWhole⟩ := unpack_of_positive positive
  rw [le_iff_distance nonnegX nonnegY] at atMost
  rw [le_iff_distance (nonneg_mul positive nonnegX) (nonneg_mul positive nonnegY), unpack_mul isWhole,
    unpack_mul isWhole]
  exact canonical.mul_distance_mono (nonneg_iff.mp nonnegX) (nonneg_iff.mp nonnegY) atMost

/-- One times a number above zero is the number. -/
theorem mul_one_of_positive (positive : isPositive whole = true) : whole * 1.0 = whole := by
  obtain ⟨significand, exponent, canonical, isWhole⟩ := unpack_of_positive positive
  have one : valueOf (2 ^ 52) (-52) = 1 := by
    rw [valueOf_two_pow]
    norm_num
  have product : (whole * 1.0).toModel.unpack = .finite .positive significand exponent canonical.positive := by
    rw [unpack_mul isWhole, unpack_oneFloat, canonical.mul_eq_nearest one_canonical, one, mul_one,
      nearest_canonical canonical, repacked, unpack_pack canonical]
  rw [float_of_unpack product, float_of_unpack isWhole]

end Products

/-! ### The middle -/

theorem two_canonical : Canonical (2 ^ 52) (-51) :=
  ⟨by decide, by decide, by decide, by decide, .inl (Nat.le_refl _)⟩

theorem unpack_twoFloat : (2.0 : Float).toModel.unpack = .finite .positive (2 ^ 52) (-51) two_canonical.positive := by
  rw [show (2.0 : Float) = ⟨Float.Model.pack (.finite .positive (2 ^ 52) (-51) two_canonical.positive)⟩ by decide]
  exact unpack_pack two_canonical

theorem isPositive_of_unpack {x : Float} {significand : ℕ} {exponent : ℤ} {nonzero : 0 < significand}
    (unpacked : x.toModel.unpack = .finite .positive significand exponent nonzero) : isPositive x = true := by
  have finite : x.isFinite = true := by
    show x.toModel.unpack.isFinite = true
    rw [unpacked]
    rfl
  have above : 0.0 < x := by
    show decide (UnpackedFloat.lt (0.0 : Float).toModel.unpack x.toModel.unpack = true) = true
    rw [unpack_zeroFloat, unpacked]
    rfl
  exact Bool.and_eq_true_iff.mpr ⟨finite, decide_eq_true above⟩

theorem nonneg_of_positive {x : Float} (positive : isPositive x = true) : 0.0 ≤ x := by
  obtain ⟨significand, exponent, canonical, unpacked⟩ := unpack_of_positive positive
  rw [nonneg_iff, unpacked]
  exact ⟨rfl, canonical⟩

/-- A double between two positive numbers is one. -/
theorem isPositive_of_between {x : Float} (notBelow : NotBelowZero x.toModel.unpack) {low high : ℚ} (positive : 0 < low)
    (above : low ≤ distance x.toModel.unpack) (below : distance x.toModel.unpack ≤ high) : isPositive x = true := by
  cases unpacked : x.toModel.unpack with
  | notANumber | infinity =>
    rw [unpacked] at below
    exact (WithTop.coe_ne_top (top_le_iff.mp below)).elim
  | zero sign =>
    rw [unpacked] at above
    exact absurd (WithTop.coe_le_coe.mp above) (not_le.mpr positive)
  | finite sign significand exponent nonzero =>
    rw [unpacked] at notBelow
    obtain rfl := notBelow.1
    exact isPositive_of_unpack unpacked

/-- A finite double that is a rounded number stands where the number is on the grid. -/
theorem unpack_of_rounding {x : Float} {q : ℚ} (notBelow : NotBelowZero x.toModel.unpack)
    (isRounded : distance x.toModel.unpack = rounding q) (finite : x.isFinite = true) (nonzero : 0 < onGrid q) :
    ∃ significand exponent, ∃ canonical : Canonical significand exponent,
      x.toModel.unpack = .finite .positive significand exponent canonical.positive ∧
        valueOf significand exponent = onGrid q := by
  have isFinite : x.toModel.unpack.isFinite = true := finite
  cases unpacked : x.toModel.unpack with
  | notANumber | infinity =>
    rw [unpacked] at isFinite
    contradiction
  | zero sign =>
    rw [unpacked] at isRounded
    exact absurd (onGrid_of_rounding isRounded.symm) nonzero.ne'
  | finite sign significand exponent positive =>
    rw [unpacked] at notBelow isRounded
    obtain ⟨rfl, canonical⟩ := notBelow
    exact ⟨significand, exponent, canonical, rfl, (onGrid_of_rounding isRounded.symm).symm⟩

/-- A half of a number above zero, as a double. -/
theorem unpack_half {x : Float} {significand : ℕ} {exponent : ℤ} {nonzero : 0 < significand}
    (unpacked : x.toModel.unpack = .finite .positive significand exponent nonzero) :
    (x / 2.0).toModel.unpack = repacked (nearest (valueOf significand exponent / 2)) := by
  have two : valueOf (2 ^ 52) (-51) = 2 := by
    rw [valueOf_two_pow]
    norm_num
  have half : (x / 2.0).toModel.unpack =
      repacked (div Format.binary64 x.toModel.unpack (2.0 : Float).toModel.unpack) := rfl
  rw [half, unpacked, unpack_twoFloat, div_eq_nearest nonzero two_canonical.positive, two]

/-- The middle of two positive numbers lies between them, if their sum is finite. -/
theorem midpoint_within {low high : Float} (lowPos : isPositive low = true) (highPos : isPositive high = true)
    (inOrder : low ≤ high) (finite : (low + high).isFinite = true) :
    isPositive ((low + high) / 2.0) = true ∧ low ≤ (low + high) / 2.0 ∧ (low + high) / 2.0 ≤ high := by
  obtain ⟨bottom, bottomExponent, bottomCanonical, isLow⟩ := unpack_of_positive lowPos
  obtain ⟨top, topExponent, topCanonical, isHigh⟩ := unpack_of_positive highPos
  have nonnegLow := nonneg_of_positive lowPos
  have nonnegHigh := nonneg_of_positive highPos
  have bottomPos := valueOf_pos bottomCanonical.positive bottomExponent
  have ordered : valueOf bottom bottomExponent ≤ valueOf top topExponent := by
    rw [le_iff_distance nonnegLow nonnegHigh, isLow, isHigh] at inOrder
    exact WithTop.coe_le_coe.mp inOrder
  -- The sum is on the grid between twice the smaller number and twice the larger one.
  have sum : (low + high).toModel.unpack =
      repacked (nearest (valueOf bottom bottomExponent + valueOf top topExponent)) := by
    rw [← add_eq_nearest bottomCanonical.positive topCanonical.positive, ← isLow, ← isHigh]
    rfl
  have sumPos : 0 < valueOf bottom bottomExponent + valueOf top topExponent := by linarith
  have onGridPos : 0 < onGrid (valueOf bottom bottomExponent + valueOf top topExponent) :=
    (bottomCanonical.onGrid.symm ▸ bottomPos).trans_le (onGrid_mono bottomPos (by linarith))
  obtain ⟨sumNotBelow, sumDistance⟩ := repacked_nearest sumPos
  rw [← sum] at sumNotBelow sumDistance
  obtain ⟨total, totalExponent, totalCanonical, isTotal, grid⟩ :=
    unpack_of_rounding sumNotBelow sumDistance finite onGridPos
  have twiceBottom : 2 * valueOf bottom bottomExponent ≤ valueOf total totalExponent := by
    rw [grid, ← bottomCanonical.onGrid_double]
    exact onGrid_mono (by linarith) (by linarith)
  have twiceTop : valueOf total totalExponent ≤ 2 * valueOf top topExponent := by
    rw [grid, ← topCanonical.onGrid_double]
    exact onGrid_mono sumPos (by linarith)
  obtain ⟨notBelow, isDistance⟩ := repacked_nearest (half_pos (valueOf_pos totalCanonical.positive totalExponent))
  rw [← unpack_half isTotal] at notBelow isDistance
  have above : (valueOf bottom bottomExponent : ℚ) ≤ distance ((low + high) / 2.0).toModel.unpack := by
    rw [isDistance, ← bottomCanonical.rounding]
    exact rounding_mono bottomPos (by linarith)
  have below : distance ((low + high) / 2.0).toModel.unpack ≤ (valueOf top topExponent : ℚ) := by
    rw [isDistance, ← topCanonical.rounding]
    exact rounding_mono (half_pos (valueOf_pos totalCanonical.positive totalExponent)) (by linarith)
  have nonneg : 0.0 ≤ (low + high) / 2.0 := nonneg_iff.mpr notBelow
  refine ⟨isPositive_of_between notBelow bottomPos above below, ?_, ?_⟩
  · rwa [le_iff_distance nonnegLow nonneg, isLow]
  · rwa [le_iff_distance nonneg nonnegHigh, isHigh]

/-- If the sum of two numbers is too large for a double, there is no double in their middle. -/
theorem midpoint_infinite {low high : Float} (lowPos : isPositive low = true) (highPos : isPositive high = true)
    (overflow : (low + high).isFinite = false) : ((low + high) / 2.0).isFinite = false := by
  have notBelow := nonneg_iff.mp (le_add (nonneg_of_positive lowPos) (nonneg_of_positive highPos)).1
  have infinite : (low + high).toModel.unpack.isFinite = false := overflow
  show (repacked (div Format.binary64 (low + high).toModel.unpack (2.0 : Float).toModel.unpack)).isFinite = false
  generalize (low + high).toModel.unpack = sum at notBelow infinite
  cases sum with
  | notANumber => exact notBelow.elim
  | zero | finite => contradiction
  | infinity sign =>
    have quotient : repacked (div Format.binary64 (.infinity sign) (.finite .positive (2 ^ 52) (-51)
        two_canonical.positive)) = .infinity (sign / .positive) := repacked_infinity _
    rw [unpack_twoFloat, quotient]
    rfl

end TradingStrategy.Number

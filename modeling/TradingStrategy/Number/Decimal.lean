import TradingStrategy.Number.Binary

/-!
Decimals and the shortest decimal that names a double.

Owns:
- decimals `digits * 10 ^ exponent` and their reading as doubles;
- the choice of the shortest decimal that reads back to a given double;
- rounding of a double to a fixed number of decimal places.

Layout, that is where the point stands and when an exponent is written, is the business of `Number.Notation`.
-/

namespace TradingStrategy.Number

/-- A decimal `digits * 10 ^ exponent`. -/
structure Decimal where
  digits : Nat
  exponent : Int
deriving Repr, DecidableEq

/-- What is written where two decimals of the same length are equally near: the upper one, or the one whose last
digit is even. -/
inductive Tie where
  | up
  | even
deriving Repr, DecidableEq

namespace Decimal

/-- The double nearest to the decimal. -/
def toFloat (d : Decimal) : Float :=
  Float.ofScientific d.digits (d.exponent < 0) d.exponent.natAbs

/-- The decimal names this magnitude: reading it gives the same double. -/
def readsBack (d : Decimal) (x : Float) : Bool :=
  d.toFloat == x

/-- Removes at most `fuel` trailing zeros from the digits. -/
def stripZeros : Nat → Decimal → Decimal
  | 0, d => d
  | fuel + 1, d =>
      if d.digits ≠ 0 ∧ d.digits % 10 = 0 then stripZeros fuel ⟨d.digits / 10, d.exponent + 1⟩ else d

/-- The same decimal without trailing zeros in its digits. -/
def normalize (d : Decimal) : Decimal :=
  stripZeros (Nat.toDigits 10 d.digits).length d

/-- The exact decimal of a magnitude: five to the power `n` replaces two to the power `-n`. -/
def exact (b : Binary) : Decimal :=
  if 0 ≤ b.exponent then ⟨b.significand <<< b.exponent.toNat, 0⟩
  else ⟨b.significand * Nat.pow 5 (-b.exponent).toNat, b.exponent⟩

/-- The magnitude divided by `10 ^ grid`, as a numerator and a denominator. -/
def ratio (b : Binary) (grid : Int) : Nat × Nat :=
  (Nat.pow 10 (-grid).toNat * b.significand <<< b.exponent.toNat, Nat.pow 10 grid.toNat <<< (-b.exponent).toNat)

/-- A power of ten is above the magnitude. -/
def belowPowerOfTen (b : Binary) (power : Int) : Bool :=
  let r := ratio b power
  r.1 < r.2

/-- The least power of ten above a positive magnitude, found next to the estimate that its binary length gives. -/
def scale (b : Binary) : Int :=
  let binaryLength : Int := b.significand.log2 + b.exponent
  let estimate := Int.fdiv (binaryLength * 1233) 4096
  if belowPowerOfTen b estimate then estimate
  else if belowPowerOfTen b (estimate + 1) then estimate + 1
  else estimate + 2

/-- The decimal on one grid that reads back to the double: of the two neighbours of its magnitude the nearer, on a
tie the one that the rule names, and the other one only if the first does not read back. -/
def onGrid (tie : Tie) (x : Float) (b : Binary) (grid : Int) : Option Decimal :=
  let r := ratio b grid
  let lower := r.1 / r.2
  let upperFirst := match compare (2 * (r.1 % r.2)) r.2 with
    | .lt => false
    | .gt => true
    | .eq => match tie with
      | .up => true
      | .even => lower % 2 = 1
  let candidates := if upperFirst then [lower + 1, lower] else [lower, lower + 1]
  (candidates.map fun digits => ⟨digits, grid⟩).find? fun d => d.readsBack x

/-- The shortest decimal that reads back to a finite double above zero, and the nearest one of that length. The
grids are tried from one digit to seventeen; the exact decimal stands behind them. -/
def shortestPositive (tie : Tie) (x : Float) : Decimal :=
  let b := Binary.ofFloat x
  let top := scale b
  match (List.range 17).findSome? fun count : Nat => onGrid tie x b (top - (count + 1)) with
  | some d => d.normalize
  | none => (exact b).normalize

/-- The shortest decimal of the magnitude of a finite double. -/
def shortest (tie : Tie) (x : Float) : Decimal :=
  if x == 0.0 then ⟨0, 0⟩ else shortestPositive tie x.abs

/-- The magnitude in units of `10 ^ -places`, rounded to the nearest whole number; a half goes to the even one. -/
def roundedUnits (places : Nat) (b : Binary) : Nat :=
  let r := ratio b (-places)
  let lower := r.1 / r.2
  match compare (2 * (r.1 % r.2)) r.2 with
  | .lt => lower
  | .gt => lower + 1
  | .eq => if lower % 2 = 0 then lower else lower + 1

end Decimal

end TradingStrategy.Number

/-!
Doubles as exact values.

Owns:
- the decoding of a finite double into a natural significand and a power of two;
- the packing of such a value, where it is representable, into a double;
- the exact operations that are built on it: whole parts, rounding half away from zero, the remainder of a
  division, and integer powers by repeated squaring;
- saturating conversions of a double to an integer range.

Everything here computes on naturals, so it can be reasoned about without any fact on the arithmetic of doubles.
-/

namespace TradingStrategy.Number

/-- The double that is no number. -/
def nan : Float := 0.0 / 0.0

/-- Positive infinity. -/
def infinity : Float := 1.0 / 0.0

/-- The sign bit is set: negative numbers, negative zero, negative infinity. -/
def isNegative (x : Float) : Bool :=
  x.toBits >>> 63 == 1

/-- A finite magnitude `significand * 2 ^ exponent`. -/
structure Binary where
  significand : Nat
  exponent : Int
deriving Repr, DecidableEq

namespace Binary

/-- The magnitude of a finite double. The two infinities and the double that is no number have none: callers
test for them first. -/
def ofFloat (x : Float) : Binary :=
  let bits := x.toBits.toNat
  let biased : Nat := (bits >>> 52) % 2048
  let fraction : Nat := bits % (1 <<< 52)
  if biased = 0 then ⟨fraction, -1074⟩ else ⟨(1 <<< 52) + fraction, (biased : Int) - 1075⟩

/-- The largest whole number that is not above the magnitude. -/
def whole (b : Binary) : Nat :=
  if 0 ≤ b.exponent then b.significand <<< b.exponent.toNat
  else b.significand >>> (-b.exponent).toNat

/-- The magnitude has no fractional part. -/
def isWhole (b : Binary) : Bool :=
  decide (0 ≤ b.exponent) || decide (b.significand % (1 <<< (-b.exponent).toNat) = 0)

/-- The double with this magnitude. The significand is moved up until it fills its 53 bits or its exponent
reaches the lowest one; the magnitudes passed here have a significand below `2 ^ 53`. -/
def toFloat (b : Binary) : Float :=
  if b.significand = 0 then 0.0
  else
    let shift := min (52 - b.significand.log2) (b.exponent + 1074).toNat
    let significand := b.significand <<< shift
    let exponent := b.exponent - shift
    Float.ofBits (UInt64.ofNat (significand + ((exponent + 1074).toNat <<< 52)))

end Binary

/-- The number with the sign of `x` and the magnitude `b`. -/
def withSignOf (x : Float) (b : Binary) : Float :=
  if isNegative x then -b.toFloat else b.toFloat

/-- The number has no fractional part. The infinities are not whole. -/
def isWhole (x : Float) : Bool :=
  x.isFinite && (Binary.ofFloat x).isWhole

/-- Rounds to the nearest whole number; a half goes away from zero. The sign stays, also on a zero. -/
def roundHalfAway (x : Float) : Float :=
  let b := Binary.ofFloat x
  if !x.isFinite || b.isWhole then x
  else
    let twice := (Binary.mk b.significand (b.exponent + 1)).whole
    withSignOf x ⟨(twice + 1) / 2, 0⟩

/-- The remainder of the division that truncates: it has the sign of the dividend and a smaller magnitude than
the divisor. There is none for an infinite dividend or a zero divisor. -/
def remainder (x y : Float) : Float :=
  if x.isNaN || y.isNaN || x.isInf || y == 0.0 then nan
  else if y.isInf then x
  else
    let a := Binary.ofFloat x
    let b := Binary.ofFloat y
    let exponent := min a.exponent b.exponent
    let dividend := a.significand <<< (a.exponent - exponent).toNat
    let divisor := b.significand <<< (b.exponent - exponent).toNat
    withSignOf x ⟨dividend % divisor, exponent⟩

/-- Multiplies `result` by the squarings of `base` that the binary digits of the exponent select, lowest first. -/
def powerLoop (result base : Float) (exponent : Nat) : Float :=
  let result := if exponent % 2 = 1 then result * base else result
  if exponent / 2 = 0 then result else powerLoop result (base * base) (exponent / 2)
termination_by exponent
decreasing_by omega

/-- An integer power by repeated squaring; a negative exponent takes the reciprocal of the positive power. -/
def power (base : Float) (exponent : Int) : Float :=
  let magnitude := powerLoop 1.0 base exponent.natAbs
  if exponent < 0 then 1.0 / magnitude else magnitude

/-- The whole part of a number as an integer between the two bounds; what is no number counts as zero. -/
def toIntClamped (low high : Int) (x : Float) : Int :=
  if x.isNaN then 0
  else if x.isInf then (if isNegative x then low else high)
  else
    let whole : Int := (Binary.ofFloat x).whole
    max low (min high (if isNegative x then -whole else whole))

/-- The whole part as a natural number below `2 ^ 64`; negative numbers and what is no number give zero. -/
def toNatClamped (x : Float) : Nat :=
  (toIntClamped 0 (UInt64.size - 1) x).toNat

/-- The smaller number; where one operand is no number, the other. -/
def least (x y : Float) : Float :=
  if x.isNaN then y else if y.isNaN then x else if y < x then y else x

/-- The larger number; where one operand is no number, the other. -/
def greatest (x y : Float) : Float :=
  if x.isNaN then y else if y.isNaN then x else if x < y then y else x

end TradingStrategy.Number

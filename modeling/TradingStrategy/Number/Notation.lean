import TradingStrategy.Number.Decimal

/-!
How numbers are written.

Owns:
- the plain notation of messages and texts: never an exponent, no point on whole numbers;
- the notation of JSON documents: always a fraction or an exponent, positional for middle magnitudes;
- the notation with a fixed number of decimal places of the reports.

All three print characters; the digits come from `Number.Decimal`.
-/

namespace TradingStrategy.Number

/-- The decimal digits of a natural number. -/
def digitChars (n : Nat) : List Char :=
  Nat.toDigits 10 n

/-- The given number of zeros. -/
def zeros (count : Nat) : List Char :=
  List.replicate count '0'

/-- A sign in front of the characters of a magnitude. -/
def signed (negative : Bool) (magnitude : List Char) : List Char :=
  if negative then '-' :: magnitude else magnitude

/-- The digits of a decimal without exponent: zeros fill up to the point, and there is a point only in front of
fractional digits. -/
def positional (d : Decimal) : List Char :=
  let digits := digitChars d.digits
  if 0 ≤ d.exponent then digits ++ zeros d.exponent.toNat
  else
    let places := (-d.exponent).toNat
    if places < digits.length then
      digits.take (digits.length - places) ++ '.' :: digits.drop (digits.length - places)
    else '0' :: '.' :: zeros (places - digits.length) ++ digits

/-- Plain notation: the fewest digits that read back, positional at every magnitude. A tie between two nearest
decimals goes up. -/
def plainChars (x : Float) : List Char :=
  if x.isNaN then ['N', 'a', 'N']
  else signed (isNegative x)
    (if x.isInf then ['i', 'n', 'f'] else positional (Decimal.shortest .up x))

def plain (x : Float) : String :=
  String.ofList (plainChars x)

/-- The magnitude of a finite number in a JSON document. The exponent of the leading digit decides: from `-5` to
`15` the number is positional and has at least one fractional digit, outside it has a signed exponent. A tie
between two nearest decimals goes to the even digit. -/
def documentMagnitude (x : Float) : List Char :=
  let d := Decimal.shortest .even x
  let digits := digitChars d.digits
  let leading : Int := digits.length - 1 + d.exponent
  if -5 ≤ leading ∧ leading ≤ 15 then
    if 0 ≤ d.exponent then positional d ++ ['.', '0'] else positional d
  else
    let fraction := if digits.length ≤ 1 then [] else '.' :: digits.drop 1
    let sign := if leading < 0 then '-' else '+'
    digits.take 1 ++ fraction ++ 'e' :: sign :: digitChars leading.natAbs

/-- A finite number in a JSON document; what is not finite has no notation there and reads `null`. -/
def documentChars (x : Float) : List Char :=
  if x.isFinite then signed (isNegative x) (documentMagnitude x) else ['n', 'u', 'l', 'l']

/-- The number of units `10 ^ -places` written with its point. -/
def placed (places units : Nat) : List Char :=
  let digits := digitChars units
  let padded := zeros (places + 1 - digits.length) ++ digits
  if places = 0 then padded
  else padded.take (padded.length - places) ++ '.' :: padded.drop (padded.length - places)

/-- Fixed notation: the exact value rounded to the given number of places, a half to the even digit. -/
def fixed (places : Nat) (x : Float) : String :=
  String.ofList (
    if x.isNaN then ['N', 'a', 'N']
    else signed (isNegative x)
      (if x.isInf then ['i', 'n', 'f'] else placed places (Decimal.roundedUnits places (Binary.ofFloat x))))

end TradingStrategy.Number

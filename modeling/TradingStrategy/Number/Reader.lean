import TradingStrategy.Number.Decimal

/-!
Numbers read from text.

Owns:
- digits as a natural number;
- the grammar of a free-standing number: an optional sign, then `inf`, `infinity` or `nan` in any case, or digits
  with an optional point and an optional exponent;
- whole numbers with an optional sign.

A reader answers with the cause when a text is no number; the wording of the causes stands beside them.
-/

namespace TradingStrategy.Number

/-- The value of a decimal digit character. -/
def digitValue (c : Char) : Nat :=
  c.toNat - '0'.toNat

/-- The natural number that a run of digits names. -/
def digitsValue (digits : List Char) : Nat :=
  digits.foldl (fun value c => 10 * value + digitValue c) 0

/-- The double that a whole part and a fraction part of decimal digits and a power of ten name. -/
def ofParts (whole fraction : List Char) (exponent : Int) : Float :=
  (Decimal.mk (digitsValue (whole ++ fraction)) (exponent - fraction.length)).toFloat

/-- Why a text is no number. -/
inductive Fault where
  | empty
  | invalid
deriving Repr, DecidableEq

/-- The wording of the fault for a text that should be a number. -/
def Fault.message : Fault → String
  | .empty => "cannot parse float from empty string"
  | .invalid => "invalid float literal"

/-- An optional sign in front: the rest, and whether the sign is a minus. -/
def splitSign : List Char → Bool × List Char
  | '-' :: rest => (true, rest)
  | '+' :: rest => (false, rest)
  | chars => (false, chars)

/-- The exponent part of a number: nothing, or a mark, an optional sign and at least one digit. -/
def exponent? : List Char → Option Int
  | [] => some 0
  | mark :: rest =>
      let (negative, digits) := splitSign rest
      if (mark = 'e' ∨ mark = 'E') ∧ digits ≠ [] ∧ digits.all Char.isDigit then
        some (if negative then -(digitsValue digits : Int) else digitsValue digits)
      else none

/-- The magnitude of a finite number: digits with at most one point, at least one digit, and an exponent. -/
def magnitude? (chars : List Char) : Option Float :=
  let whole := chars.takeWhile Char.isDigit
  let afterWhole := chars.dropWhile Char.isDigit
  let (fraction, rest) := match afterWhole with
    | '.' :: tail => (tail.takeWhile Char.isDigit, tail.dropWhile Char.isDigit)
    | _ => ([], afterWhole)
  if whole = [] ∧ fraction = [] then none
  else (exponent? rest).map fun exponent => ofParts whole fraction exponent

/-- The named magnitudes, in any case of their letters. -/
def named? (chars : List Char) : Option Float :=
  let name := chars.map Char.toLower
  if name = "nan".toList then some nan
  else if name = "inf".toList ∨ name = "infinity".toList then some infinity
  else none

/-- Reads a number that makes up the whole text. -/
def parse (text : String) : Except Fault Float :=
  match text.toList with
  | [] => .error .empty
  | chars =>
      let (negative, rest) := splitSign chars
      match (named? rest <|> magnitude? rest) with
      | some x => .ok (if negative then -x else x)
      | none => .error .invalid

/-- Reads a whole number with an optional sign, within the two bounds. -/
def parseInt? (low high : Int) (text : String) : Option Int :=
  let (negative, digits) := splitSign text.toList
  if digits ≠ [] ∧ digits.all Char.isDigit then
    let value : Int := if negative then -(digitsValue digits : Int) else digitsValue digits
    if low ≤ value ∧ value ≤ high then some value else none
  else none

end TradingStrategy.Number

/-!
JSON values.

Owns:
- the type of values, with whole numbers apart from other numbers and with the fields of an object in a list;
- look-up of fields, of which the last one of a name counts;
- the canonical form of a value, in which each object has its fields once and in ascending order of their names;
- the name of a value's kind.
-/

namespace TradingStrategy

/-- A JSON value. A number without fraction and exponent is an `int`, every other one a `float`. -/
inductive Json where
  | null
  | bool (value : Bool)
  | int (value : Int)
  | float (value : Float)
  | string (value : String)
  | array (items : List Json)
  | object (fields : List (String × Json))
deriving Repr, Inhabited

namespace Json

/-- The value of the last field with the name. -/
def lookup? (name : String) (fields : List (String × Json)) : Option Json :=
  (fields.reverse.find? fun field => field.1 == name).map Prod.snd

/-- The value of a field of an object. -/
def field? (name : String) : Json → Option Json
  | object fields => lookup? name fields
  | _ => none

/-- Puts a field into a list of fields in ascending order, in the place of a field with the same name. -/
def insertField (field : String × Json) : List (String × Json) → List (String × Json)
  | [] => [field]
  | head :: rest =>
      if field.1 < head.1 then field :: head :: rest
      else if field.1 = head.1 then field :: rest
      else head :: insertField field rest

mutual

/-- The same value with the fields of every object in ascending order, the last one of each name kept. -/
def canonical : Json → Json
  | array items => array (canonicalItems items)
  | object fields => object (canonicalFields fields [])
  | value => value

/-- The canonical forms of the items. -/
def canonicalItems : List Json → List Json
  | [] => []
  | item :: rest => canonical item :: canonicalItems rest

/-- Puts the canonical forms of the fields, first to last, into ordered fields. -/
def canonicalFields : List (String × Json) → List (String × Json) → List (String × Json)
  | [], ordered => ordered
  | (name, value) :: rest, ordered => canonicalFields rest (insertField (name, canonical value) ordered)

end

/-- A number as a double. -/
def number? : Json → Option Float
  | int value => some (Float.ofInt value)
  | float value => some value
  | _ => none

def string? : Json → Option String
  | string value => some value
  | _ => none

def kindName : Json → String
  | null => "null"
  | bool _ => "boolean"
  | int _ => "number"
  | float _ => "number"
  | string _ => "string"
  | array _ => "array"
  | object _ => "object"

end Json

end TradingStrategy

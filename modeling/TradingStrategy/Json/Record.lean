import TradingStrategy.Json.Value

/-!
Records, tagged values and choices in JSON.

Owns:
- records: an object whose fields count by name, or an array whose items count by position;
- tagged values: a record with a field or a first item that names the variant;
- choices among fixed names, and lists.

Unknown fields are ignored. A field of a record that stands twice in one object makes the object unreadable.
-/

namespace TradingStrategy.Json

mutual

/-- How deeply containers are nested in a value, itself included. -/
def height : Json → Nat
  | array items => heightOfItems items + 1
  | object fields => heightOfFields fields + 1
  | _ => 0

/-- The greatest height of the items. -/
def heightOfItems : List Json → Nat
  | [] => 0
  | item :: rest => max (height item) (heightOfItems rest)

/-- The greatest height of the values of the fields. -/
def heightOfFields : List (String × Json) → Nat
  | [] => 0
  | (_, value) :: rest => max (height value) (heightOfFields rest)

end

/-- The fields of a record in the order of the given names; a missing field is `none`. -/
def record? (names : List String) : Json → Option (List (Option Json))
  | object fields => names.mapM fun name =>
      match fields.filter fun field => field.1 == name with
      | [] => some none
      | [field] => some (some field.2)
      | _ => none
  | array items =>
      if items.length ≤ names.length then some ((List.range names.length).map fun i => items[i]?) else none
  | _ => none

/-- The name of a variant. In the content of another tagged value the position of the variant may stand for its
name. -/
def variant? (variants : List String) (nested : Bool) : Json → Option String
  | string name => if name ∈ variants then some name else none
  | int position => if nested ∧ 0 ≤ position then variants[position.toNat]? else none
  | _ => none

/-- The variant that a tagged value names, and its content without the tag. -/
def tagged? (tag : String) (variants : List String) (nested : Bool) : Json → Option (String × Json)
  | object fields =>
      match fields.filter fun field => field.1 == tag with
      | [field] => (variant? variants nested field.2).map fun variant =>
          (variant, object (fields.filter fun field => field.1 != tag))
      | _ => none
  | array (first :: rest) => (variant? variants nested first).map fun variant => (variant, array rest)
  | _ => none

/-- A choice among fixed names: the name, or an object whose only field has that name and no value. In the content of
a tagged value an empty object, too, is no value. -/
def choice? {α : Type} (name : α → String) (options : List α) (nested : Bool) : Json → Option α
  | string text => options.find? fun option => name option == text
  | object [(text, null)] => options.find? fun option => name option == text
  | object [(text, object [])] => if nested then options.find? fun option => name option == text else none
  | _ => none

/-- A list of values that are read alike. -/
def list? {α : Type} (item? : Json → Option α) : Json → Option (List α)
  | array items => items.mapM item?
  | _ => none

def bool? : Json → Option Bool
  | bool value => some value
  | _ => none

/-- A whole number from 0 to the limit. -/
def nat? (limit : Nat) : Json → Option Nat
  | int value => if 0 ≤ value ∧ value ≤ limit then some value.toNat else none
  | _ => none

/-- The limit of 32-bit whole numbers. -/
def limit32 : Nat := UInt32.size - 1

end TradingStrategy.Json

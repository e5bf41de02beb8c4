import TradingStrategy.Expr.Basic
import TradingStrategy.Json.Record

/-!
Expressions as JSON values.

Owns: the tagged form of a syntax tree and its reading. A number may be written as a whole number; the tags are
`literal`, `identifier`, `binary`, `unary`, `call` and `array_access`.
-/

namespace TradingStrategy

namespace Value

def toJson : Value → Json
  | number value => .float value
  | boolean value => .bool value

def ofJson? : Json → Option Value
  | .bool value => some (boolean value)
  | json => json.number?.map number

end Value

namespace Expr

/-- The tags of the nodes. -/
def tags : List String :=
  ["literal", "identifier", "binary", "unary", "call", "array_access"]

mutual

def toJson : Expr → Json
  | literal value => .object [("type", .string "literal"), ("value", value.toJson)]
  | identifier name => .object [("type", .string "identifier"), ("name", .string name)]
  | binary op left right =>
      .object [("type", .string "binary"), ("op", .string op.symbol), ("left", toJson left), ("right", toJson right)]
  | unary op arg => .object [("type", .string "unary"), ("op", .string op.symbol), ("arg", toJson arg)]
  | call name args =>
      .object [("type", .string "call"), ("name", .string name), ("args", .array (listToJson args))]
  | lookback object index =>
      .object [("type", .string "array_access"), ("object", toJson object), ("index", toJson index)]

def listToJson : List Expr → List Json
  | [] => []
  | first :: rest => toJson first :: listToJson rest

end

/-- Reads an expression whose nodes are nested at most `depth` deep. Below the root every node is the content of a
tagged value. -/
def ofJsonWithin : Nat → Bool → Json → Option Expr
  | 0, _, _ => none
  | depth + 1, nested, json => do
      let (variant, content) ← json.tagged? "type" tags nested
      match variant with
      | "literal" =>
          match ← content.record? ["value"] with
          | [some value] => return literal (← Value.ofJson? value)
          | _ => none
      | "identifier" =>
          match ← content.record? ["name"] with
          | [some name] => return identifier (← name.string?)
          | _ => none
      | "binary" =>
          match ← content.record? ["op", "left", "right"] with
          | [some op, some left, some right] =>
              return binary (← op.choice? BinaryOp.symbol BinaryOp.all true)
                (← ofJsonWithin depth true left) (← ofJsonWithin depth true right)
          | _ => none
      | "unary" =>
          match ← content.record? ["op", "arg"] with
          | [some op, some arg] =>
              return unary (← op.choice? UnaryOp.symbol UnaryOp.all true) (← ofJsonWithin depth true arg)
          | _ => none
      | "call" =>
          match ← content.record? ["name", "args"] with
          | [some name, some args] =>
              return call (← name.string?) (← args.list? (ofJsonWithin depth true))
          | _ => none
      | _ =>
          match ← content.record? ["object", "index"] with
          | [some object, some index] =>
              return lookback (← ofJsonWithin depth true object) (← ofJsonWithin depth true index)
          | _ => none

/-- Reads an expression. `nested` says whether it is the content of a tagged value. -/
def ofJson? (nested : Bool) (json : Json) : Option Expr :=
  ofJsonWithin json.height nested json

end Expr

end TradingStrategy

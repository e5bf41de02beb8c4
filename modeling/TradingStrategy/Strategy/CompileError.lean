import TradingStrategy.Document.Violation
import TradingStrategy.Expr.Parser
import TradingStrategy.Expr.Scope
import TradingStrategy.Feature.Registry

/-!
Why a document is not compiled.

Owns: the causes, their codes, their wording and their details. The details are a JSON value whose fields stand in
ascending order of their names. An error in an expression names the place of the expression in the document.
-/

namespace TradingStrategy

/-- Why a document is not compiled. -/
inductive CompileError where
  /-- The text stops being JSON on this line. -/
  | notJson (line : Nat)
  | schema (error : SchemaError)
  | registry (error : RegistryError)
  | parse (place : Json.Path) (expression : String) (error : Expr.ParseError)
  | scope (place : Json.Path) (expression : String) (error : ScopeError)
deriving Repr

namespace RegistryError

def code : RegistryError → String
  | builtinCollision _ | duplicate _ | unknownFeatures .. => "UNREGISTERED_FEATURE"
  | unknownDependency .. => "UNKNOWN_DEPENDENCY"
  | cycle _ => "FEATURE_DEPENDENCY_CYCLE"

def details : RegistryError → Json
  | builtinCollision name | duplicate name => .object [("feature", .string name)]
  | unknownFeatures names available =>
      .object [("available", .array (available.map .string)), ("unknown", .array (names.map .string))]
  | unknownDependency feature dependency =>
      .object [("dependency", .string dependency), ("feature", .string feature)]
  | cycle path => .object [("cycle", .array (path.map .string))]

end RegistryError

namespace ScopeError

def code : ScopeError → String
  | undeclared .. => "UNDECLARED_IDENTIFIER"
  | unknownFunction _ | arity .. => "UNKNOWN_FUNCTION"

def details (place : Json.Path) (expression : String) : ScopeError → Json
  | undeclared _ names => .object [("expression", .string expression), ("names", .array (names.map .string)),
      ("path", .string (Json.pathText place))]
  | unknownFunction name => .object [
      ("allowed", .array (allowedFunctions.map fun allowed => .string (functionSignature allowed))),
      ("expression", .string expression), ("function", .string name), ("path", .string (Json.pathText place))]
  | arity name expected got => .object [("expected", .string expected.range), ("expression", .string expression),
      ("function", .string name), ("got", .int got), ("path", .string (Json.pathText place))]

end ScopeError

namespace CompileError

def code : CompileError → String
  | notJson _ => "DSL_SYNTAX"
  | schema _ => "SCHEMA_VIOLATION"
  | registry error => error.code
  | parse .. => "EXPRESSION_PARSE"
  | scope _ _ error => error.code

def message : CompileError → String
  | notJson line => "DSL text is not valid JSON: line " ++ toString line
  | schema error => error.message
  | registry error => error.message
  | parse place _ error => Json.pathText place ++ ": " ++ error.message
  | scope place _ error => Json.pathText place ++ ": " ++ error.message

def details : CompileError → Json
  | notJson line => .object [("line", .int line)]
  | schema error => .object [("path", .string (Json.pathText error.path)),
      ("violation", .string error.violation.message)]
  | registry error => error.details
  | parse place expression error => .object [("expression", .string expression),
      ("fragment", .string error.fragment), ("path", .string (Json.pathText place)),
      ("position", .int error.position)]
  | scope place expression error => error.details place expression

end CompileError

end TradingStrategy

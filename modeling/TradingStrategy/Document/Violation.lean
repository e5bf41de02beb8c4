import TradingStrategy.Json.Path
import TradingStrategy.Market.Timeframe
import TradingStrategy.Number.Notation

/-!
Violations of the document schema.

Owns: the causes for which a document is refused, each with the path of the offending place, and their wording.
-/

namespace TradingStrategy

/-- The ranges that values of a document keep to. -/
inductive Constraint where
  | positive
  | positivePrice
  | zoneOrder (low high : Float)
  | ratio
  | ratioSum (total : Float)
  | positiveWhole
deriving Repr, DecidableEq

/-- What else can be wrong with a value of the right type. -/
inductive Defect where
  | blank
  | blankExpression
  | notFinite
  | identifier (name : String)
  | featureKind (text : String)
  | notBuiltin (name : String)
  | duplicateFeature (name : String)
  | timeframe (text : String)
  | side (text : String)
  | zoneLength (length : Nat)
  | duplicatePlan (id : String)
deriving Repr, DecidableEq

/-- Why a place of a document is refused. -/
inductive Violation where
  | missing
  | wrongType (expected found : String)
  | outOfRange (constraint : Constraint)
  | empty
  | unknownField
  | invalid (defect : Defect)
deriving Repr, DecidableEq

def Constraint.message : Constraint → String
  | positive => "must be > 0"
  | positivePrice => "price must be > 0"
  | zoneOrder low high => "low " ++ Number.plain low ++ " must be <= high " ++ Number.plain high
  | ratio => "must be within [0, 1]"
  | ratioSum total => "ratioOfPosition sums to " ++ Number.plain total ++ ", must be <= 1"
  | positiveWhole => "must be a whole number >= 1"

def Defect.message : Defect → String
  | blank => "must not be blank"
  | blankExpression => "expression must not be blank"
  | notFinite => "not a finite number"
  | identifier name => "'" ++ name ++ "' is not a valid identifier"
  | featureKind text =>
      "unknown feature type '" ++ text ++ "', expected builtin, indicator or microstructure"
  | notBuiltin name => "'" ++ name ++ "' is not a builtin feature"
  | duplicateFeature name => "duplicate feature '" ++ name ++ "'"
  | timeframe text => Timeframe.unknownMessage text
  | side text => "unknown side '" ++ text ++ "', expected buy or sell"
  | zoneLength length => "expected [low, high], found " ++ toString length ++ " elements"
  | duplicatePlan id => "duplicate order plan id '" ++ id ++ "'"

def Violation.message : Violation → String
  | missing => "required field is missing"
  | wrongType expected found => "expected " ++ expected ++ ", found " ++ found
  | outOfRange constraint => "out of range: " ++ constraint.message
  | empty => "must contain at least one element"
  | unknownField => "unknown field"
  | invalid defect => defect.message

/-- A violation and its place. -/
structure SchemaError where
  path : Json.Path
  violation : Violation
deriving Repr, DecidableEq

/-- The whole message of a schema error. -/
def SchemaError.message (error : SchemaError) : String :=
  "schema violation at " ++ Json.pathText error.path ++ ": " ++ error.violation.message

end TradingStrategy

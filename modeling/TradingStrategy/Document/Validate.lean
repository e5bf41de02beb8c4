import TradingStrategy.Document.Basic
import TradingStrategy.Document.Violation
import TradingStrategy.Text.Blank

/-!
Validation of documents.

Owns: the reading of a JSON value as a strategy document. The first place that breaks a rule is the answer; places are
looked at in a fixed order, section by section. A field that is null counts as missing.
-/

namespace TradingStrategy

/-- A value with the path to it. -/
structure Place where
  path : Json.Path
  value : Json
deriving Repr

namespace Place

/-- The error for a violation at a place. -/
def refuse {α : Type} (place : Place) (violation : Violation) : Except SchemaError α :=
  .error ⟨place.path, violation⟩

/-- The error for a value of the wrong type. -/
def wrongType {α : Type} (place : Place) (expected : String) : Except SchemaError α :=
  place.refuse (.wrongType expected place.value.kindName)

/-- The path to a field. -/
def pathOf (place : Place) (key : String) : Json.Path :=
  place.path ++ [.key key]

/-- A field that is there and not null. -/
def field? (place : Place) (key : String) : Option Place :=
  match place.value.field? key with
  | none => none
  | some .null => none
  | some value => some ⟨place.pathOf key, value⟩

/-- A field that must be there. -/
def field (place : Place) (key : String) : Except SchemaError Place :=
  match place.field? key with
  | some inner => .ok inner
  | none => .error ⟨place.pathOf key, .missing⟩

/-- The place itself, which must be an object. -/
def asObject (place : Place) : Except SchemaError Place :=
  match place.value with
  | .object _ => .ok place
  | _ => place.wrongType "object"

/-- The text of a place, which must not be blank. -/
def asString (place : Place) : Except SchemaError String :=
  match place.value with
  | .string text => if Text.isBlankText text then place.refuse (.invalid .blank) else .ok text
  | _ => place.wrongType "string"

/-- The finite number of a place. -/
def asNumber (place : Place) : Except SchemaError Float :=
  match place.value.number? with
  | some value => if value.isFinite then .ok value else place.refuse (.invalid .notFinite)
  | none => place.wrongType "number"

def asBool (place : Place) : Except SchemaError Bool :=
  match place.value with
  | .bool value => .ok value
  | _ => place.wrongType "boolean"

/-- The items of a place, each with its own path. -/
def asItems (place : Place) : Except SchemaError (List Place) :=
  match place.value with
  | .array items => .ok (items.zipIdx.map fun (item, index) => ⟨place.path ++ [.position index], item⟩)
  | _ => place.wrongType "array"

/-- The items of a place, of which there must be one. -/
def asSomeItems (place : Place) : Except SchemaError (List Place) := do
  match ← place.asItems with
  | [] => place.refuse .empty
  | items => return items

/-- A positive finite number. -/
def asPositive (place : Place) : Except SchemaError Float := do
  let value ← place.asNumber
  if value ≤ 0.0 then place.refuse (.outOfRange .positive) else return value

/-- A price: a positive finite number, or the text of an expression. -/
def asPrice (place : Place) : Except SchemaError PriceSpec :=
  match place.value with
  | .string text =>
      if Text.isBlankText text then place.refuse (.invalid .blankExpression) else .ok (.expression text)
  | value =>
      match value.number? with
      | some price =>
          if price.isFinite && 0.0 < price then .ok (.literal price) else place.refuse (.outOfRange .positivePrice)
      | none => place.wrongType "number or expression string"

end Place

/-- An ASCII letter or an underscore, and ASCII letters, digits and underscores behind it. -/
def isIdentifier (text : String) : Bool :=
  match text.toList with
  | [] => false
  | first :: rest => (first.isAlpha || first = '_') && rest.all fun c => c.isAlphanum || c = '_'

namespace StrategyDocument

def sections : List String :=
  ["meta", "features", "rules", "orderPlans", "execution", "risk"]

/-- Refuses the first field that is no section. -/
def checkSections (root : Place) : Except SchemaError Unit :=
  match root.value with
  | .object fields =>
      match fields.find? fun field => !sections.contains field.1 with
      | some (name, _) => .error ⟨root.pathOf name, .unknownField⟩
      | none => .ok ()
  | _ => .ok ()

/-- Reads the section of name, symbol and timeframe. -/
def readMeta (place : Place) : Except SchemaError StrategyMeta := do
  let name ← (← place.field "name").asString
  let symbol ← (← place.field "symbol").asString
  let timeframePlace ← place.field "timeframe"
  let text ← timeframePlace.asString
  match Timeframe.ofName? text with
  | some timeframe => return ⟨name, symbol, timeframe⟩
  | none => timeframePlace.refuse (.invalid (.timeframe text))

/-- Reads one declared feature, given those before it. -/
def readFeature (before : List FeatureDeclaration) (item : Place) : Except SchemaError FeatureDeclaration := do
  let place ← item.asObject
  let namePlace ← place.field "name"
  let name ← namePlace.asString
  if !isIdentifier name then namePlace.refuse (.invalid (.identifier name))
  else
    let kindPlace ← place.field "type"
    let text ← kindPlace.asString
    match FeatureKind.ofName? text with
    | none => kindPlace.refuse (.invalid (.featureKind text))
    | some kind =>
        if kind = .builtin ∧ !isBuiltin name then namePlace.refuse (.invalid (.notBuiltin name))
        else if before.any fun other => other.name == name then
          namePlace.refuse (.invalid (.duplicateFeature name))
        else return ⟨name, kind, ((place.field? "params").map Place.value).getD .null⟩

/-- Reads the declared features in their order. -/
def readFeatures (place : Place) : Except SchemaError (List FeatureDeclaration) := do
  (← place.asItems).foldlM (fun before item => do return before ++ [← readFeature before item]) []

/-- The field with the conditions that invalidate a plan; it has two spellings, of which the first goes first. -/
def conditions? (invalidate : Place) : Option Place :=
  invalidate.field? "when_any" <|> invalidate.field? "whenAny"

def readRules (place : Place) : Except SchemaError Rules := do
  let arm ← (← place.field "arm").asString
  let trigger ← (← place.field "trigger").asString
  match place.field? "invalidate" with
  | none => return ⟨arm, trigger, []⟩
  | some invalidate =>
      match conditions? (← invalidate.asObject) with
      | none => return ⟨arm, trigger, []⟩
      | some conditions => return ⟨arm, trigger, ← (← conditions.asItems).mapM Place.asString⟩

/-- What the ratios of targets may add up to. -/
def maxRatioSum : Float := 1.0 + 1e-9

/-- The sum of the ratios of targets, first to last. -/
def ratioSum (targets : List TargetDeclaration) : Float :=
  targets.foldl (fun total target => total + target.ratio) 0.0

def readTarget (item : Place) : Except SchemaError TargetDeclaration := do
  let place ← item.asObject
  let price ← (← place.field "price").asPrice
  let ratioPlace ← place.field "ratioOfPosition"
  let ratio ← ratioPlace.asNumber
  if 0.0 ≤ ratio && ratio ≤ 1.0 then return ⟨price, ratio⟩ else ratioPlace.refuse (.outOfRange .ratio)

/-- Reads the entry zone: two prices, in order when both are numbers. -/
def readZone (place : Place) : Except SchemaError (PriceSpec × PriceSpec) := do
  match ← place.asItems with
  | [lowPlace, highPlace] =>
      let low ← lowPlace.asPrice
      let high ← highPlace.asPrice
      match low, high with
      | .literal l, .literal h => if h < l then place.refuse (.outOfRange (.zoneOrder l h)) else return (low, high)
      | _, _ => return (low, high)
  | items => place.refuse (.invalid (.zoneLength items.length))

/-- Reads the side of a plan. -/
def readSide (place : Place) : Except SchemaError Side := do
  let text ← place.asString
  match Side.ofName? text with
  | some side => return side
  | none => place.refuse (.invalid (.side text))

/-- Reads the symbol of a plan, which is the symbol of the strategy where none is given. -/
def readSymbol (place : Place) (defaultSymbol : String) : Except SchemaError String :=
  match place.field? "symbol" with
  | some symbol => symbol.asString
  | none => .ok defaultSymbol

/-- Reads one order plan. -/
def readPlan (defaultSymbol : String) (item : Place) : Except SchemaError PlanDeclaration := do
  let place ← item.asObject
  let id ← (← place.field "id").asString
  let symbol ← readSymbol place defaultSymbol
  let side ← readSide (← place.field "side")
  let (zoneLow, zoneHigh) ← readZone (← place.field "entryZone")
  let quantity ← (← place.field "qty").asPositive
  let stop ← (← place.field "stopPrice").asPrice
  let targetsPlace ← place.field "targets"
  let targets ← (← targetsPlace.asSomeItems).mapM readTarget
  let total := ratioSum targets
  if maxRatioSum < total then targetsPlace.refuse (.outOfRange (.ratioSum total))
  else return ⟨id, symbol, side, zoneLow, zoneHigh, quantity, stop, targets⟩

/-- Reads one order plan, given those before it. -/
def readNextPlan (defaultSymbol : String) (before : List PlanDeclaration) (item : Place) :
    Except SchemaError PlanDeclaration := do
  let plan ← readPlan defaultSymbol item
  if before.any fun other => other.id == plan.id then
    .error ⟨item.pathOf "id", .invalid (.duplicatePlan plan.id)⟩
  else return plan

/-- Reads the order plans in their order. -/
def readPlans (defaultSymbol : String) (place : Place) : Except SchemaError (List PlanDeclaration) := do
  (← place.asSomeItems).foldlM (fun before item => do return before ++ [← readNextPlan defaultSymbol before item]) []

/-- The largest number of bars that an entry may take. -/
def maxTimeoutBars : Nat := UInt32.size - 1

/-- Reads the bars that an entry may take: a whole number, at least one. -/
def readTimeout (place : Place) : Except SchemaError Nat :=
  match place.value with
  | .int bars =>
      if 1 ≤ bars ∧ bars ≤ maxTimeoutBars then .ok bars.toNat else place.refuse (.outOfRange .positiveWhole)
  | .float _ => place.refuse (.outOfRange .positiveWhole)
  | _ => place.wrongType "number"

/-- Reads the execution options; what is missing has its default. -/
def readExecution (item : Place) : Except SchemaError Execution := do
  let place ← item.asObject
  let timeout ← match place.field? "entryTimeoutBars" with
    | some timeout => readTimeout timeout
    | none => .ok Execution.default.entryTimeoutBars
  let regularHoursOnly ← match place.field? "rthOnly" with
    | some flag => flag.asBool
    | none => .ok Execution.default.regularHoursOnly
  return ⟨timeout, regularHoursOnly⟩

/-- Reads a JSON value as a strategy document. -/
def validate (value : Json) : Except SchemaError StrategyDocument := do
  let root ← (Place.mk [] value).asObject
  checkSections root
  let info ← readMeta (← (← root.field "meta").asObject)
  let features ← match root.field? "features" with
    | some features => readFeatures features
    | none => .ok []
  let rules ← readRules (← (← root.field "rules").asObject)
  let orderPlans ← readPlans info.symbol (← root.field "orderPlans")
  let execution ← match root.field? "execution" with
    | some execution => readExecution execution
    | none => .ok Execution.default
  let risk ← (← root.field "risk").asObject
  let maxRisk ← (← risk.field "maxRiskPerTrade").asPositive
  return ⟨info, features, rules, orderPlans, execution, maxRisk⟩

end StrategyDocument

end TradingStrategy

import TradingStrategy.Document.Basic
import TradingStrategy.Feature.Codec

/-!
Documents as JSON values.

Owns: the JSON form of a document, and a lenient reading that checks types but no rules. The lenient reading accepts
records as arrays, ignores unknown fields and fills in defaults.
-/

namespace TradingStrategy

namespace PriceSpec

def toJson : PriceSpec → Json
  | literal value => .float value
  | expression text => .string text

def ofJson? : Json → Option PriceSpec
  | .string text => some (expression text)
  | json => json.number?.map literal

end PriceSpec

namespace StrategyDocument

/-- The name, symbol and timeframe as JSON. -/
def metaToJson (info : StrategyMeta) : Json :=
  .object [("name", .string info.name), ("symbol", .string info.symbol), ("timeframe", .string info.timeframe.name)]

def featureToJson (feature : FeatureDeclaration) : Json :=
  .object ([("name", .string feature.name), ("type", .string feature.kind.name)] ++
    Json.fieldUnlessNull "params" feature.params)

def rulesToJson (rules : Rules) : Json :=
  .object [("arm", .string rules.arm), ("trigger", .string rules.trigger),
    ("invalidate", .object [("when_any", .array (rules.invalidate.map .string))])]

def targetToJson (target : TargetDeclaration) : Json :=
  .object [("price", target.price.toJson), ("ratioOfPosition", .float target.ratio)]

/-- An order plan as JSON. -/
def planToJson (plan : PlanDeclaration) : Json :=
  .object [("id", .string plan.id), ("symbol", .string plan.symbol), ("side", .string plan.side.name),
    ("entryZone", .array [plan.zoneLow.toJson, plan.zoneHigh.toJson]), ("qty", .float plan.quantity),
    ("stopPrice", plan.stop.toJson), ("targets", .array (plan.targets.map targetToJson))]

/-- The execution options as JSON. -/
def executionToJson (execution : Execution) : Json :=
  .object [("entryTimeoutBars", .int execution.entryTimeoutBars), ("rthOnly", .bool execution.regularHoursOnly)]

def toJson (document : StrategyDocument) : Json :=
  .object [("meta", metaToJson document.info), ("features", .array (document.features.map featureToJson)),
    ("rules", rulesToJson document.rules), ("orderPlans", .array (document.orderPlans.map planToJson)),
    ("execution", executionToJson document.execution),
    ("risk", .object [("maxRiskPerTrade", .float document.maxRisk)])]

/-- The value of a field, or the default where the field is missing. -/
def orDefault {α : Type} (default : α) (read : Json → Option α) : Option Json → Option α
  | some json => read json
  | none => some default

/-- The name, symbol and timeframe from JSON. -/
def metaOfJson? (json : Json) : Option StrategyMeta := do
  match ← json.record? ["name", "symbol", "timeframe"] with
  | [some name, some symbol, some timeframe] =>
      return ⟨← name.string?, ← symbol.string?, ← timeframe.choice? Timeframe.name Timeframe.all false⟩
  | _ => none

def featureOfJson? (json : Json) : Option FeatureDeclaration := do
  match ← json.record? ["name", "type", "params"] with
  | [some name, some kind, params] =>
      return ⟨← name.string?, ← kind.choice? FeatureKind.name FeatureKind.all false, (params.getD .null).canonical⟩
  | _ => none

/-- The invalidating conditions from JSON, under either spelling of their field. -/
def conditionsOfJson? (json : Json) : Option (List String) := do
  let renamed : Json := match json with
    | .object fields => .object (fields.map fun (name, value) => (if name = "whenAny" then "when_any" else name, value))
    | other => other
  match ← renamed.record? ["when_any"] with
  | [conditions] => orDefault [] (Json.list? Json.string?) conditions
  | _ => none

def rulesOfJson? (json : Json) : Option Rules := do
  match ← json.record? ["arm", "trigger", "invalidate"] with
  | [some arm, some trigger, invalidate] =>
      return ⟨← arm.string?, ← trigger.string?, ← orDefault [] conditionsOfJson? invalidate⟩
  | _ => none

def targetOfJson? (json : Json) : Option TargetDeclaration := do
  match ← json.record? ["price", "ratioOfPosition"] with
  | [some price, some ratio] => return ⟨← PriceSpec.ofJson? price, ← ratio.number?⟩
  | _ => none

/-- An order plan from JSON. -/
def planOfJson? (json : Json) : Option PlanDeclaration := do
  match ← json.record? ["id", "symbol", "side", "entryZone", "qty", "stopPrice", "targets"] with
  | [some id, some symbol, some side, some (.array [low, high]), some quantity, some stop, some targets] =>
      return {
        id := ← id.string?
        symbol := ← symbol.string?
        side := ← side.choice? Side.name Side.all false
        zoneLow := ← PriceSpec.ofJson? low
        zoneHigh := ← PriceSpec.ofJson? high
        quantity := ← quantity.number?
        stop := ← PriceSpec.ofJson? stop
        targets := ← targets.list? targetOfJson? }
  | _ => none

def executionOfJson? (json : Json) : Option Execution := do
  match ← json.record? ["entryTimeoutBars", "rthOnly"] with
  | [timeout, flag] =>
      return ⟨← orDefault Execution.default.entryTimeoutBars (Json.nat? Json.limit32) timeout,
        ← orDefault Execution.default.regularHoursOnly Json.bool? flag⟩
  | _ => none

/-- The risk limit from JSON. -/
def riskOfJson? (json : Json) : Option Float := do
  match ← json.record? ["maxRiskPerTrade"] with
  | [some limit] => limit.number?
  | _ => none

/-- A document from JSON, by types alone. -/
def ofJson? (json : Json) : Option StrategyDocument := do
  match ← json.record? ["meta", "features", "rules", "orderPlans", "execution", "risk"] with
  | [some info, features, some rules, some plans, execution, some risk] =>
      return {
        info := ← metaOfJson? info
        features := ← orDefault [] (Json.list? featureOfJson?) features
        rules := ← rulesOfJson? rules
        orderPlans := ← plans.list? planOfJson?
        execution := ← orDefault Execution.default executionOfJson? execution
        maxRisk := ← riskOfJson? risk }
  | _ => none

end StrategyDocument

end TradingStrategy

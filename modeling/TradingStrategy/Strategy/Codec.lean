import TradingStrategy.Strategy.Basic
import TradingStrategy.Expr.Codec
import TradingStrategy.Feature.Codec
import TradingStrategy.Json.Reader
import TradingStrategy.Json.Printer

/-!
Compiled strategies as JSON values and as text.

Owns: the persistent form of a compiled strategy, and its reading. Guards are tagged by `kind`, actions by `action`,
prices by `kind`. What is read must have every field that is written; unknown fields are ignored.
-/

namespace TradingStrategy

/-! ### Guards and actions -/

namespace Guard

def tags : List String :=
  ["expr", "always", "arm_timeout", "live_order_exists"]

def toJson : Guard → Json
  | expression condition => .object [("kind", .string "expr"), ("expr", condition.toJson)]
  | always => .object [("kind", .string "always")]
  | armTimeout => .object [("kind", .string "arm_timeout")]
  | liveOrder => .object [("kind", .string "live_order_exists")]

end Guard

/-- A variant without fields: fields behind its tag are ignored, items are not. -/
def Json.bare? {α : Type} (value : α) : Json → Option α
  | .array (_ :: _) => none
  | _ => some value

def Guard.ofJson? (json : Json) : Option Guard := do
  let (variant, content) ← json.tagged? "kind" tags false
  match variant with
  | "expr" =>
      match ← content.record? ["expr"] with
      | [some condition] => return expression (← Expr.ofJson? true condition)
      | _ => none
  | "always" => content.bare? always
  | "arm_timeout" => content.bare? armTimeout
  | _ => content.bare? liveOrder

namespace Action

def tags : List String :=
  ["log", "submit_order_plan", "start_timer", "cancel_entries"]

def toJson : Action → Json
  | log message => .object [("action", .string "log"), ("message", .string message)]
  | submit planId => .object [("action", .string "submit_order_plan"), ("plan_id", .string planId)]
  | startTimer bars => .object [("action", .string "start_timer"), ("bars", .int bars)]
  | cancelEntries => .object [("action", .string "cancel_entries")]

def ofJson? (json : Json) : Option Action := do
  let (variant, content) ← json.tagged? "action" tags false
  match variant with
  | "log" =>
      match ← content.record? ["message"] with
      | [some message] => return log (← message.string?)
      | _ => none
  | "submit_order_plan" =>
      match ← content.record? ["plan_id"] with
      | [some planId] => return submit (← planId.string?)
      | _ => none
  | "start_timer" =>
      match ← content.record? ["bars"] with
      | [some bars] => return startTimer (← bars.nat? Json.limit32)
      | _ => none
  | _ => content.bare? cancelEntries

end Action

namespace Transition

def toJson (transition : Transition) : Json :=
  .object [("from", .string transition.source.name), ("to", .string transition.target.name),
    ("when", transition.guard.toJson), ("actions", .array (transition.actions.map Action.toJson))]

def ofJson? (json : Json) : Option Transition := do
  match ← json.record? ["from", "to", "when", "actions"] with
  | [some source, some target, some guard, some actions] =>
      return {
        source := ← source.choice? Stage.name Stage.all false
        target := ← target.choice? Stage.name Stage.all false
        guard := ← Guard.ofJson? guard
        actions := ← actions.list? Action.ofJson? }
  | _ => none

end Transition

/-! ### Order plans -/

namespace PriceSlot

def tags : List String :=
  ["literal", "expr"]

def toJson : PriceSlot → Json
  | literal value => .object [("kind", .string "literal"), ("value", .float value)]
  | expression price source placeholder => .object [("kind", .string "expr"), ("expr", price.toJson),
      ("source", .string source), ("placeholder", .float placeholder)]

def ofJson? (json : Json) : Option PriceSlot := do
  let (variant, content) ← json.tagged? "kind" tags false
  match variant with
  | "literal" =>
      match ← content.record? ["value"] with
      | [some value] => return literal (← value.number?)
      | _ => none
  | _ =>
      match ← content.record? ["expr", "source", "placeholder"] with
      | [some price, some source, some placeholder] =>
          return expression (← Expr.ofJson? true price) (← source.string?) (← placeholder.number?)
      | _ => none

end PriceSlot

namespace Target

def toJson (target : Target) : Json :=
  .object [("price", target.price.toJson), ("ratioOfPosition", .float target.ratio)]

def ofJson? (json : Json) : Option Target := do
  match ← json.record? ["price", "ratioOfPosition"] with
  | [some price, some ratio] => return ⟨← PriceSlot.ofJson? price, ← ratio.number?⟩
  | _ => none

end Target

namespace OrderPlan

def toJson (plan : OrderPlan) : Json :=
  .object [("id", .string plan.id), ("symbol", .string plan.symbol), ("side", .string plan.side.name),
    ("entryZone", .array [plan.zoneLow.toJson, plan.zoneHigh.toJson]), ("qty", .float plan.quantity),
    ("stopPrice", plan.stop.toJson), ("targets", .array (plan.targets.map Target.toJson))]

def ofJson? (json : Json) : Option OrderPlan := do
  match ← json.record? ["id", "symbol", "side", "entryZone", "qty", "stopPrice", "targets"] with
  | [some id, some symbol, some side, some (.array [low, high]), some quantity, some stop, some targets] =>
      return {
        id := ← id.string?
        symbol := ← symbol.string?
        side := ← side.choice? Side.name Side.all false
        zoneLow := ← PriceSlot.ofJson? low
        zoneHigh := ← PriceSlot.ofJson? high
        quantity := ← quantity.number?
        stop := ← PriceSlot.ofJson? stop
        targets := ← targets.list? Target.ofJson? }
  | _ => none

end OrderPlan

/-! ### Strategies -/

namespace Strategy

/-- The execution options from JSON; both are needed. -/
def executionOfJson? (json : Json) : Option Execution := do
  match ← json.record? ["entryTimeoutBars", "rthOnly"] with
  | [some timeout, some flag] => return ⟨← timeout.nat? Json.limit32, ← flag.bool?⟩
  | _ => none

/-- The risk limit from JSON. -/
def riskOfJson? (json : Json) : Option Float := do
  match ← json.record? ["maxRiskPerTrade"] with
  | [some limit] => limit.number?
  | _ => none

def toJson (strategy : Strategy) : Json :=
  .object [("name", .string strategy.name), ("symbol", .string strategy.symbol),
    ("timeframe", .string strategy.timeframe.name), ("initialState", .string strategy.start.name),
    ("featurePlan", .array (strategy.featurePlan.map FeatureDescriptor.toJson)),
    ("transitions", .array (strategy.transitions.map Transition.toJson)),
    ("orderPlans", .array (strategy.orderPlans.map OrderPlan.toJson)),
    ("execution", .object [("entryTimeoutBars", .int strategy.execution.entryTimeoutBars),
      ("rthOnly", .bool strategy.execution.regularHoursOnly)]),
    ("risk", .object [("maxRiskPerTrade", .float strategy.maxRisk)])]

def ofJson? (json : Json) : Option Strategy := do
  match ← json.record? ["name", "symbol", "timeframe", "initialState", "featurePlan", "transitions", "orderPlans",
      "execution", "risk"] with
  | [some name, some symbol, some timeframe, some start, some featurePlan, some transitions, some orderPlans,
      some execution, some risk] =>
      return {
        name := ← name.string?
        symbol := ← symbol.string?
        timeframe := ← timeframe.choice? Timeframe.name Timeframe.all false
        start := ← start.choice? Stage.name Stage.all false
        featurePlan := ← featurePlan.list? FeatureDescriptor.ofJson?
        transitions := ← transitions.list? Transition.ofJson?
        orderPlans := ← orderPlans.list? OrderPlan.ofJson?
        execution := ← executionOfJson? execution
        maxRisk := ← riskOfJson? risk }
  | _ => none

/-- The persistent text of a strategy. -/
def text (strategy : Strategy) : String :=
  strategy.toJson.pretty

/-- What is read of a persistent text. Tagged values are read as a whole. -/
def shape : Json.Shape :=
  .record [("name", .any), ("symbol", .any), ("timeframe", .any), ("initialState", .any),
    ("featurePlan", .list (.record [("name", .any), ("kind", .any), ("dependencies", .any), ("params", .any)])),
    ("transitions", .list (.record [("from", .any), ("to", .any), ("when", .any), ("actions", .any)])),
    ("orderPlans", .list (.record [("id", .any), ("symbol", .any), ("side", .any), ("entryZone", .any), ("qty", .any),
      ("stopPrice", .any), ("targets", .list (.record [("price", .any), ("ratioOfPosition", .any)]))])),
    ("execution", .record [("entryTimeoutBars", .any), ("rthOnly", .any)]),
    ("risk", .record [("maxRiskPerTrade", .any)])]

/-- The strategy of a persistent text. -/
def ofText? (text : String) : Option Strategy :=
  match Json.readShape shape text with
  | .ok json => ofJson? json
  | .error _ => none

end Strategy

end TradingStrategy

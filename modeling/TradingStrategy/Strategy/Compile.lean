import TradingStrategy.Document.Validate
import TradingStrategy.Feature.Plan
import TradingStrategy.Json.Reader
import TradingStrategy.Strategy.Basic
import TradingStrategy.Strategy.CompileError

/-!
Compiling documents.

Owns:
- expressions that are parsed and checked against the scope of their place;
- the table of transitions, which is the same for every strategy;
- the compilation of a document, which stops at the first error and then gives no strategy.

The order of the checks: the schema, the declared features, the rules, the feature plan, the prices of the order plans.
-/

namespace TradingStrategy

open Json (Path)

namespace CompileError

/-- A result whose error is a compile error. -/
def lift {ε α : Type} (wrap : ε → CompileError) : Except ε α → Except CompileError α
  | .ok value => .ok value
  | .error error => .error (wrap error)

end CompileError

namespace StrategyDocument

/-! ### Expressions -/

/-- The expression of a place, if its text is one and fits the scope of the place. -/
def checkedExpression (declared : List String) (scope : Scope) (place : Path) (text : String) :
    Except CompileError Expr := do
  let e ← CompileError.lift (.parse place text) (Expr.parse text)
  CompileError.lift (.scope place text) (checkScope declared scope e)
  return e

def priceSlot (declared : List String) (scope : Scope) (place : Path) : PriceSpec → Except CompileError PriceSlot
  | .literal value => .ok (.literal value)
  | .expression text => do
      return .expression (← checkedExpression declared scope place text) text 0.0

/-- The places of the rules. -/
def rulePlace (name : String) : Path :=
  [.key "rules", .key name]

/-- The place of an invalidating condition. -/
def conditionPlace (index : Nat) : Path :=
  [.key "rules", .key "invalidate", .key "when_any", .position index]

/-- The place of an order plan. -/
def planPlace (index : Nat) : Path :=
  [.key "orderPlans", .position index]

/-- Applies a step that knows its position to each item in turn. -/
def forEachAt {α β ε : Type} (step : Nat → α → Except ε β) (index : Nat) : List α → Except ε (List β)
  | [] => .ok []
  | first :: rest => do
      let head ← step index first
      let tail ← forEachAt step (index + 1) rest
      return head :: tail

/-- The invalidating conditions, from a position on. -/
def conditions (declared : List String) (texts : List String) : Except CompileError (List Expr) :=
  forEachAt (fun index text => checkedExpression declared .invalidate (conditionPlace index) text) 0 texts

/-! ### Order plans -/

/-- A target of an order plan. -/
def compileTarget (declared : List String) (plan : Path) (index : Nat) (target : TargetDeclaration) :
    Except CompileError Target := do
  let place := plan ++ [.key "targets", .position index, .key "price"]
  return ⟨← priceSlot declared .target place target.price, target.ratio⟩

def compilePlan (declared : List String) (index : Nat) (plan : PlanDeclaration) : Except CompileError OrderPlan := do
  let place := planPlace index
  let low ← priceSlot declared .entryZone (place ++ [.key "entryZone", .position 0]) plan.zoneLow
  let high ← priceSlot declared .entryZone (place ++ [.key "entryZone", .position 1]) plan.zoneHigh
  let stop ← priceSlot declared .stopPrice (place ++ [.key "stopPrice"]) plan.stop
  let targets ← forEachAt (compileTarget declared place) 0 plan.targets
  return {
    id := plan.id
    symbol := plan.symbol
    side := plan.side
    zoneLow := low
    zoneHigh := high
    quantity := plan.quantity
    stop := stop
    targets := targets }

/-! ### The table of transitions -/

/-- The transitions of every strategy. The first one that leaves the present stage and whose guard holds is taken, so
the trigger goes before the time-out. -/
def transitionTable (arm trigger invalidate : Expr) (planId : String) (timeout : Nat) : List Transition :=
  [ ⟨.idle, .armed, .expression arm, [.log "Arming strategy"]⟩,
    ⟨.armed, .placed, .expression trigger,
      [.submit planId, .startTimer timeout, .log "Trigger fired, order plan submitted"]⟩,
    ⟨.armed, .idle, .armTimeout, [.log "Arm timeout, reset"]⟩,
    ⟨.placed, .managing, .liveOrder, [.log "Order live, managing position"]⟩,
    ⟨.managing, .exited, .expression invalidate, [.cancelEntries, .log "Invalidated, exiting"]⟩,
    ⟨.exited, .idle, .always, [.log "Re-arming for next trade setup"]⟩ ]

/-- The plan that the trigger submits if the document has none. -/
def defaultPlanId : String :=
  "primary"

/-- The plan that the trigger submits: the first one. -/
def triggerPlanId (document : StrategyDocument) : String :=
  match document.orderPlans with
  | [] => defaultPlanId
  | plan :: _ => plan.id

/-! ### Documents -/

/-- The declared features that are not builtin. -/
def registeredNames (document : StrategyDocument) : List String :=
  document.featureNames.filter fun name => !isBuiltin name

/-- An entry of a feature plan with the parameters of its declaration, if it has one. -/
def withParams (document : StrategyDocument) (descriptor : FeatureDescriptor) : FeatureDescriptor :=
  match document.features.find? fun feature => feature.name == descriptor.name with
  | some feature => { descriptor with params := feature.params }
  | none => descriptor

def compile (registry : Registry) (document : StrategyDocument) : Except CompileError Strategy := do
  let declared := document.featureNames
  CompileError.lift .registry (registry.checkDeclared document.registeredNames)
  let arm ← checkedExpression declared .arm (rulePlace "arm") document.rules.arm
  let trigger ← checkedExpression declared .trigger (rulePlace "trigger") document.rules.trigger
  let invalidate ← conditions declared document.rules.invalidate
  let featurePlan ← CompileError.lift .registry (registry.resolvePlan document.registeredNames)
  let orderPlans ← forEachAt (compilePlan declared) 0 document.orderPlans
  return {
    name := document.info.name
    symbol := document.info.symbol
    timeframe := document.info.timeframe
    start := .idle
    featurePlan := featurePlan.map document.withParams
    transitions := transitionTable arm trigger (Expr.anyOf invalidate) document.triggerPlanId
      document.execution.entryTimeoutBars
    orderPlans := orderPlans
    execution := document.execution
    maxRisk := document.maxRisk }

end StrategyDocument

namespace Strategy

/-- Compiles a document that is given as a JSON value. -/
def ofDocument (registry : Registry) (json : Json) : Except CompileError Strategy := do
  let document ← CompileError.lift .schema (StrategyDocument.validate json)
  document.compile registry

/-- Compiles a document that is given as a text. -/
def ofDocumentText (registry : Registry) (text : String) : Except CompileError Strategy := do
  let json ← CompileError.lift .notJson (Json.readCanonical text)
  ofDocument registry json

end Strategy

end TradingStrategy

import TradingStrategy.Order.Resolve
import TradingStrategy.Proofs.Document.Sections
import TradingStrategy.Proofs.Expr.Scope
import TradingStrategy.Proofs.Feature.Plan
import TradingStrategy.Strategy.Compile

/-!
Blueprints of compiled strategies.

Owns:
- a blueprint: the rules of a strategy and its first order plan, with the table of transitions that they give;
- `ofDocument_follows`: every compiled strategy follows a blueprint whose expressions fit the scopes of their places,
  whose plan has a target, and whose features the registry backs.
-/

namespace TradingStrategy

open StrategyDocument (checkedExpression priceSlot compileTarget compilePlan forEachAt transitionTable)

/-- The rules of a strategy and the plan that its trigger submits. -/
structure Blueprint where
  declared : List String
  arm : Expr
  trigger : Expr
  invalidate : Expr
  plan : OrderPlan

namespace Blueprint

/-! ### The six transitions -/

/-- From idle: the strategy arms. -/
def arming (blueprint : Blueprint) : Transition :=
  ⟨.idle, .armed, .expression blueprint.arm, [.log "Arming strategy"]⟩

/-- From armed: the plan is submitted. -/
def placing (blueprint : Blueprint) (timeout : Nat) : Transition :=
  ⟨.armed, .placed, .expression blueprint.trigger,
    [.submit blueprint.plan.id, .startTimer timeout, .log "Trigger fired, order plan submitted"]⟩

/-- From armed: the strategy has waited too long. -/
def giveUp : Transition :=
  ⟨.armed, .idle, .armTimeout, [.log "Arm timeout, reset"]⟩

/-- From placed: an order is live. -/
def manage : Transition :=
  ⟨.placed, .managing, .liveOrder, [.log "Order live, managing position"]⟩

/-- From managing: the entries are cancelled. -/
def exiting (blueprint : Blueprint) : Transition :=
  ⟨.managing, .exited, .expression blueprint.invalidate, [.cancelEntries, .log "Invalidated, exiting"]⟩

/-- From exited: the strategy starts over. -/
def startOver : Transition :=
  ⟨.exited, .idle, .always, [.log "Re-arming for next trade setup"]⟩

/-- The table of transitions. -/
def table (blueprint : Blueprint) (timeout : Nat) : List Transition :=
  [blueprint.arming, blueprint.placing timeout, giveUp, manage, blueprint.exiting, startOver]

end Blueprint

/-- A strategy takes its transitions and the plan that it submits from a blueprint. -/
structure Strategy.Follows (strategy : Strategy) (blueprint : Blueprint) : Prop where
  start : strategy.start = .idle
  transitions : strategy.transitions = blueprint.table strategy.execution.entryTimeoutBars
  orderPlan? : strategy.orderPlan? blueprint.plan.id = some blueprint.plan

/-! ### Checked expressions in their places -/

/-- The expression of a price, if it has one, fits its scope. -/
def PriceSlot.Checked (declared : List String) (scope : Scope) : PriceSlot → Prop
  | literal _ => True
  | expression price _ _ => price.Checked declared scope

/-- The prices of a plan fit their scopes, and there is a target. -/
structure OrderPlan.Checked (declared : List String) (plan : OrderPlan) : Prop where
  zoneLow : plan.zoneLow.Checked declared .entryZone
  zoneHigh : plan.zoneHigh.Checked declared .entryZone
  stop : plan.stop.Checked declared .stopPrice
  targets : ∀ target ∈ plan.targets, target.price.Checked declared .target
  hasTarget : plan.targets ≠ []

/-- All expressions of a blueprint fit their scopes. -/
structure Blueprint.Checked (blueprint : Blueprint) : Prop where
  arm : blueprint.arm.Checked blueprint.declared .arm
  trigger : blueprint.trigger.Checked blueprint.declared .trigger
  invalidate : blueprint.invalidate.Checked blueprint.declared .invalidate
  plan : blueprint.plan.Checked blueprint.declared

/-- A feature plan has an entry for every declared name that is not builtin, and the registry backs all of it. -/
structure Blueprint.PlannedBy (blueprint : Blueprint) (registry : Registry) (plan : List FeatureDescriptor) : Prop where
  backed : ∀ entry ∈ plan, registry.Backs entry
  covered : ∀ name ∈ blueprint.declared, isBuiltin name = false → ∃ entry ∈ plan, entry.name = name

theorem lift_eq_ok {ε α : Type} {wrap : ε → CompileError} {result : Except ε α} {value : α}
    (lifted : CompileError.lift wrap result = .ok value) : result = .ok value := by
  cases result with
  | ok inner => exact congrArg Except.ok (Except.ok.inj lifted)
  | error error => contradiction

namespace StrategyDocument

theorem checkedExpression_checked {declared : List String} {scope : Scope} {place : Json.Path} {text : String}
    {e : Expr} (checked : checkedExpression declared scope place text = .ok e) : e.Checked declared scope := by
  unfold checkedExpression at checked
  obtain ⟨parsed, isParsed, checked⟩ := bind_eq_ok checked
  obtain ⟨_, fits, checked⟩ := bind_eq_ok checked
  rw [← Except.ok.inj checked]
  have fits := lift_eq_ok fits
  exact ⟨checkScope_named fits, checkScope_callable fits, Expr.parse_indexed (lift_eq_ok isParsed)⟩

theorem priceSlot_checked {declared : List String} {scope : Scope} {place : Json.Path} {spec : PriceSpec}
    {slot : PriceSlot} (read : priceSlot declared scope place spec = .ok slot) : slot.Checked declared scope := by
  cases spec with
  | literal value =>
    rw [← Except.ok.inj read]
    trivial
  | expression text =>
    obtain ⟨e, checked, read⟩ := bind_eq_ok read
    rw [← Except.ok.inj read]
    exact checkedExpression_checked checked

/-- What a step gives to every item holds of all that the walk returns. -/
theorem forEachAt_all {α β ε : Type} {step : Nat → α → Except ε β} (good : β → Prop)
    (gives : ∀ index item value, step index item = .ok value → good value) {items : List α} {index : Nat}
    {values : List β} (done : forEachAt step index items = .ok values) :
    (∀ value ∈ values, good value) ∧ values.length = items.length := by
  induction items generalizing index values with
  | nil =>
    rw [← Except.ok.inj done]
    exact ⟨by simp, rfl⟩
  | cons first rest inductionHypothesis =>
    rw [forEachAt] at done
    obtain ⟨head, isHead, done⟩ := bind_eq_ok done
    obtain ⟨tail, isTail, done⟩ := bind_eq_ok done
    obtain ⟨tailGood, length⟩ := inductionHypothesis isTail
    rw [← Except.ok.inj done]
    refine ⟨?_, by rw [List.length_cons, List.length_cons, length]⟩
    intro value member
    rcases List.mem_cons.mp member with rfl | member
    · exact gives index first value isHead
    · exact tailGood value member

/-- Every value of a walk was given by its step for an item. -/
theorem forEachAt_origin {α β ε : Type} {step : Nat → α → Except ε β} {items : List α} {index : Nat} {values : List β}
    (done : forEachAt step index items = .ok values) :
    ∀ value ∈ values, ∃ position, ∃ item ∈ items, step position item = .ok value := by
  induction items generalizing index values with
  | nil =>
    rw [← Except.ok.inj done]
    exact fun _ member => absurd member List.not_mem_nil
  | cons first rest inductionHypothesis =>
    rw [forEachAt] at done
    obtain ⟨head, isHead, done⟩ := bind_eq_ok done
    obtain ⟨tail, isTail, done⟩ := bind_eq_ok done
    rw [← Except.ok.inj done]
    intro value member
    rcases List.mem_cons.mp member with rfl | member
    · exact ⟨index, first, List.mem_cons_self, isHead⟩
    · obtain ⟨position, item, inRest, gives⟩ := inductionHypothesis isTail value member
      exact ⟨position, item, List.mem_cons_of_mem first inRest, gives⟩

/-- What a step keeps of every item is kept of all items. -/
theorem forEachAt_map {α β γ ε : Type} {step : Nat → α → Except ε β} {ofItem : α → γ} {ofValue : β → γ}
    (keeps : ∀ index item value, step index item = .ok value → ofValue value = ofItem item) {items : List α}
    {index : Nat} {values : List β} (done : forEachAt step index items = .ok values) :
    values.map ofValue = items.map ofItem := by
  induction items generalizing index values with
  | nil =>
    rw [← Except.ok.inj done]
    rfl
  | cons first rest inductionHypothesis =>
    rw [forEachAt] at done
    obtain ⟨head, isHead, done⟩ := bind_eq_ok done
    obtain ⟨tail, isTail, done⟩ := bind_eq_ok done
    rw [← Except.ok.inj done, List.map_cons, List.map_cons, keeps index first head isHead, inductionHypothesis isTail]

theorem conditions_checked {declared : List String} {texts : List String} {list : List Expr}
    (checked : conditions declared texts = .ok list) : ∀ e ∈ list, e.Checked declared .invalidate :=
  (forEachAt_all (fun e => e.Checked declared .invalidate)
    (fun _ _ _ step => checkedExpression_checked step) checked).1

theorem compilePlan_checked {declared : List String} {index : Nat} {declaration : PlanDeclaration} {plan : OrderPlan}
    (hasTarget : declaration.targets ≠ []) (compiled : compilePlan declared index declaration = .ok plan) :
    plan.Checked declared ∧ plan.id = declaration.id := by
  unfold compilePlan at compiled
  obtain ⟨low, isLow, compiled⟩ := bind_eq_ok compiled
  obtain ⟨high, isHigh, compiled⟩ := bind_eq_ok compiled
  obtain ⟨stop, isStop, compiled⟩ := bind_eq_ok compiled
  obtain ⟨targets, areTargets, compiled⟩ := bind_eq_ok compiled
  obtain ⟨targetsChecked, count⟩ := forEachAt_all (fun target => target.price.Checked declared .target)
    (by
      intro index item target step
      obtain ⟨price, isPrice, step⟩ := bind_eq_ok step
      rw [← Except.ok.inj step]
      exact priceSlot_checked isPrice) areTargets
  rw [← Except.ok.inj compiled]
  refine ⟨?_, rfl⟩
  exact {
    zoneLow := priceSlot_checked isLow
    zoneHigh := priceSlot_checked isHigh
    stop := priceSlot_checked isStop
    targets := targetsChecked
    hasTarget := List.length_pos_iff.mp (count ▸ List.length_pos_iff.mpr hasTarget) }

theorem withParams_backs {registry : Registry} {document : StrategyDocument} {entry : FeatureDescriptor}
    (described : registry.describe? entry.name = some entry) :
    registry.Backs (document.withParams entry) ∧ (document.withParams entry).name = entry.name := by
  unfold Registry.Backs withParams
  split
  · exact ⟨by simp [described], rfl⟩
  · exact ⟨by simp [described], rfl⟩

theorem compile_planned {registry : Registry} {document : StrategyDocument} {plan : List FeatureDescriptor}
    (resolved : registry.resolvePlan document.registeredNames = .ok plan) {blueprint : Blueprint}
    (declares : blueprint.declared = document.featureNames) :
    blueprint.PlannedBy registry (plan.map document.withParams) := by
  obtain ⟨covered, described⟩ := Registry.resolvePlan_covers resolved
  constructor
  · intro entry member
    obtain ⟨bare, inPlan, rfl⟩ := List.mem_map.mp member
    exact (withParams_backs (described bare inPlan)).1
  · intro name declared notBuiltin
    have registered : name ∈ document.registeredNames :=
      List.mem_filter.mpr ⟨declares ▸ declared, by simp [notBuiltin]⟩
    obtain ⟨entry, inPlan, named⟩ := covered name (List.mem_append_right _ registered)
    exact ⟨document.withParams entry, List.mem_map_of_mem inPlan,
      (withParams_backs (described entry inPlan)).2.trans named⟩

/-- The parts of a compiled strategy, and what each was compiled from. -/
structure CompiledFrom (registry : Registry) (document : StrategyDocument) (strategy : Strategy) : Prop where
  start : strategy.start = .idle
  transitions : ∃ arm trigger invalidate,
    checkedExpression document.featureNames .arm (rulePlace "arm") document.rules.arm = .ok arm ∧
    checkedExpression document.featureNames .trigger (rulePlace "trigger") document.rules.trigger = .ok trigger ∧
    conditions document.featureNames document.rules.invalidate = .ok invalidate ∧
    strategy.transitions = transitionTable arm trigger (Expr.anyOf invalidate) document.triggerPlanId
      document.execution.entryTimeoutBars
  featurePlan : ∃ plan, registry.resolvePlan document.registeredNames = .ok plan ∧
    strategy.featurePlan = plan.map document.withParams
  orderPlans : forEachAt (compilePlan document.featureNames) 0 document.orderPlans = .ok strategy.orderPlans
  execution : strategy.execution = document.execution
  maxRisk : strategy.maxRisk = document.maxRisk

theorem compile_parts {registry : Registry} {document : StrategyDocument} {strategy : Strategy}
    (compiled : document.compile registry = .ok strategy) : CompiledFrom registry document strategy := by
  unfold compile at compiled
  obtain ⟨_, _, compiled⟩ := bind_eq_ok compiled
  obtain ⟨arm, isArm, compiled⟩ := bind_eq_ok compiled
  obtain ⟨trigger, isTrigger, compiled⟩ := bind_eq_ok compiled
  obtain ⟨invalidate, isInvalidate, compiled⟩ := bind_eq_ok compiled
  obtain ⟨featurePlan, isFeaturePlan, compiled⟩ := bind_eq_ok compiled
  obtain ⟨plans, arePlans, compiled⟩ := bind_eq_ok compiled
  rw [← Except.ok.inj compiled]
  exact {
    start := rfl
    transitions := ⟨arm, trigger, invalidate, isArm, isTrigger, isInvalidate, rfl⟩
    featurePlan := ⟨featurePlan, lift_eq_ok isFeaturePlan, rfl⟩
    orderPlans := arePlans
    execution := rfl
    maxRisk := rfl }

/-- A compiled document follows a blueprint with its first order plan, if it has an order plan and every order plan a
target. -/
theorem compile_follows {registry : Registry} {document : StrategyDocument} {strategy : Strategy}
    (somePlan : document.orderPlans ≠ []) (targets : ∀ plan ∈ document.orderPlans, plan.targets ≠ [])
    (compiled : document.compile registry = .ok strategy) :
    ∃ blueprint : Blueprint, strategy.Follows blueprint ∧ blueprint.Checked ∧
      blueprint.PlannedBy registry strategy.featurePlan ∧ strategy.orderPlans.head? = some blueprint.plan ∧
      strategy.execution = document.execution := by
  obtain ⟨start, ⟨arm, trigger, invalidate, isArm, isTrigger, isInvalidate, transitions⟩,
    ⟨featurePlan, isFeaturePlan, planned⟩, arePlans, execution, _⟩ := compile_parts compiled
  match listed : document.orderPlans with
  | [] => exact absurd listed somePlan
  | declaration :: others =>
    rw [listed, forEachAt] at arePlans
    obtain ⟨plan, isPlan, arePlans⟩ := bind_eq_ok arePlans
    obtain ⟨rest, _, arePlans⟩ := bind_eq_ok arePlans
    obtain ⟨planChecked, planId⟩ := compilePlan_checked (targets declaration (by simp [listed])) isPlan
    refine ⟨⟨document.featureNames, arm, trigger, Expr.anyOf invalidate, plan⟩, ?_, ?_, ?_, ?_, execution⟩
    · have firstId : document.triggerPlanId = plan.id := by simp [triggerPlanId, listed, planId]
      refine ⟨start, by rw [transitions, firstId, execution]; rfl, ?_⟩
      simp [Strategy.orderPlan?, ← Except.ok.inj arePlans]
    · exact ⟨checkedExpression_checked isArm, checkedExpression_checked isTrigger,
        Expr.anyOf_checked (conditions_checked isInvalidate), planChecked⟩
    · rw [planned]
      exact compile_planned isFeaturePlan rfl
    · simp [← Except.ok.inj arePlans]

end StrategyDocument

/-- Every compiled strategy follows a blueprint that its registry can serve. -/
theorem Strategy.ofDocument_follows {registry : Registry} {json : Json} {strategy : Strategy}
    (compiled : Strategy.ofDocument registry json = .ok strategy) :
    ∃ blueprint : Blueprint, strategy.Follows blueprint ∧ blueprint.Checked ∧
      blueprint.PlannedBy registry strategy.featurePlan := by
  obtain ⟨document, valid, compiled⟩ := bind_eq_ok compiled
  obtain ⟨somePlan, targets⟩ := StrategyDocument.validate_plans (lift_eq_ok valid)
  obtain ⟨blueprint, follows, checked, planned, _⟩ := StrategyDocument.compile_follows somePlan targets compiled
  exact ⟨blueprint, follows, checked, planned⟩

/-- The blueprint of a compiled strategy has its first order plan, and an entry may take at least one bar. -/
theorem Strategy.ofDocument_first {registry : Registry} {json : Json} {strategy : Strategy}
    (compiled : Strategy.ofDocument registry json = .ok strategy) :
    ∃ blueprint : Blueprint, strategy.Follows blueprint ∧ strategy.orderPlans.head? = some blueprint.plan ∧
      1 ≤ strategy.execution.entryTimeoutBars := by
  obtain ⟨document, valid, compiled⟩ := bind_eq_ok compiled
  obtain ⟨somePlan, targets⟩ := StrategyDocument.validate_plans (lift_eq_ok valid)
  obtain ⟨blueprint, follows, _, _, first, same⟩ := StrategyDocument.compile_follows somePlan targets compiled
  exact ⟨blueprint, follows, first, same ▸ StrategyDocument.validate_timeout (lift_eq_ok valid)⟩

/-! ### A document whose rules and prices are expressions -/

/-- A breakout: it arms on a rising bar and buys once the price has left the zone of that bar. -/
def breakoutDocument : Json :=
  .object [
    ("meta", .object [("name", .string "breakout"), ("symbol", .string "ACME"), ("timeframe", .string "1m")]),
    ("rules", .object [
      ("arm", .string "close > open"),
      ("trigger", .string "close > entry && close[1] > stop"),
      ("invalidate", .object [("when_any", .array [.string "close < stop", .string "high - low > 50"])])]),
    ("orderPlans", .array [.object [
      ("id", .string "primary"), ("side", .string "buy"), ("qty", .int 10),
      ("entryZone", .array [.string "close - 1", .string "close"]), ("stopPrice", .string "eL - 4"),
      ("targets", .array [
        .object [("price", .string "entry + 2 * (entry - stop)"), ("ratioOfPosition", .int 1)]])]]),
    ("risk", .object [("maxRiskPerTrade", .int 100)])]

set_option maxRecDepth 100000 in
theorem breakoutDocument_compiles : ∃ strategy, Strategy.ofDocument .empty breakoutDocument = .ok strategy := by
  have compiles : (Strategy.ofDocument .empty breakoutDocument).isOk = true := by decide +kernel
  match compiled : Strategy.ofDocument .empty breakoutDocument with
  | .ok strategy => exact ⟨strategy, rfl⟩
  | .error error =>
    rw [compiled] at compiles
    contradiction

end TradingStrategy

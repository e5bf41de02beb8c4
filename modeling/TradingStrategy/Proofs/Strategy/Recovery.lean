import TradingStrategy.Proofs.Expr.Recovery
import TradingStrategy.Strategy.Codec

/-!
Strategies are recovered from their persistent form.

Owns:
- the numbers of a strategy and of its parts;
- `Strategy.IsStorable`: what the fields of a strategy can hold;
- that every part is recovered, field by field, exactly if its numbers are finite.
-/

namespace TradingStrategy

open Json (Recovers)

/-! ### Guards, actions and transitions -/

/-- The numbers of the condition of a guard. -/
def Guard.numbers : Guard → List Float
  | expression condition => condition.numbers
  | _ => []

theorem Guard.recovers (guard : Guard) :
    Recovers ofJson? guard.toJson (∀ n ∈ guard.numbers, n.isFinite = true) guard := by
  intro found
  cases guard with
  | expression condition =>
    show (do return expression (← Expr.ofJson? true condition.toJson.written)) = some found ↔ _
    simp [Option.bind_eq_some_iff, condition.recovers true _, numbers]
  | always =>
    show some always = some found ↔ _
    simp [numbers]
  | armTimeout =>
    show some armTimeout = some found ↔ _
    simp [numbers]
  | liveOrder =>
    show some liveOrder = some found ↔ _
    simp [numbers]

/-- A timer has 32 bits. -/
def Action.Fits (action : Action) : Prop :=
  ∀ bars, action = .startTimer bars → bars ≤ Json.limit32

theorem Action.recovers {action : Action} (fits : action.Fits) : Recovers ofJson? action.toJson True action := by
  intro found
  cases action with
  | startTimer bars =>
    show (do return startTimer (← Json.nat? Json.limit32 (.int bars))) = some found ↔ _
    simp [Json.nat?, fits bars rfl]
  | log message =>
    show some (log message) = some found ↔ _
    simp
  | submit planId =>
    show some (submit planId) = some found ↔ _
    simp
  | cancelEntries =>
    show some cancelEntries = some found ↔ _
    simp

theorem Stage.choice (stage : Stage) : Json.choice? name all false (.string stage.name) = some stage := by
  cases stage <;> rfl

theorem Transition.recovers {transition : Transition} (fits : ∀ action ∈ transition.actions, action.Fits) :
    Recovers ofJson? transition.toJson (∀ n ∈ transition.guard.numbers, n.isFinite = true) transition := by
  intro found
  have isGuard := transition.guard.recovers
  have areActions := Json.recovers_list fun action member => Action.recovers (fits action member)
  show (do
    return Transition.mk (← Json.choice? Stage.name Stage.all false (.string transition.source.name))
      (← Json.choice? Stage.name Stage.all false (.string transition.target.name))
      (← Guard.ofJson? transition.guard.toJson.written)
      (← Json.list? Action.ofJson? (Json.array (transition.actions.map Action.toJson)).written)) = some found ↔ _
  simp [Option.bind_eq_some_iff, Stage.choice, isGuard _, areActions _]

/-! ### Order plans -/

/-- The numbers of a price: the fixed one, or those of the expression and the one that stands in its place. -/
def PriceSlot.numbers : PriceSlot → List Float
  | literal value => [value]
  | expression price _ placeholder => price.numbers ++ [placeholder]

theorem PriceSlot.recovers (slot : PriceSlot) :
    Recovers ofJson? slot.toJson (∀ n ∈ slot.numbers, n.isFinite = true) slot := by
  intro found
  cases slot with
  | literal value =>
    show (do return literal (← (Json.float value).written.number?)) = some found ↔ _
    simp [Option.bind_eq_some_iff, Json.recovers_float value _, numbers]
  | expression price source placeholder =>
    show (do
      return expression (← Expr.ofJson? true price.toJson.written) source
        (← (Json.float placeholder).written.number?)) = some found ↔ _
    simp [Option.bind_eq_some_iff, price.recovers true _, Json.recovers_float placeholder _, numbers, or_imp,
      forall_and, and_assoc]

/-- The numbers of a target. -/
def Target.numbers (target : Target) : List Float :=
  target.price.numbers ++ [target.ratio]

theorem Target.recovers (target : Target) :
    Recovers ofJson? target.toJson (∀ n ∈ target.numbers, n.isFinite = true) target := by
  intro found
  show (do
    return Target.mk (← PriceSlot.ofJson? target.price.toJson.written) (← (Json.float target.ratio).written.number?)) =
    some found ↔ _
  simp [Option.bind_eq_some_iff, target.price.recovers _, Json.recovers_float target.ratio _, numbers, or_imp,
    forall_and, and_assoc]

/-- The numbers of an order plan. -/
def OrderPlan.numbers (plan : OrderPlan) : List Float :=
  plan.zoneLow.numbers ++ plan.zoneHigh.numbers ++ [plan.quantity] ++ plan.stop.numbers ++
    plan.targets.flatMap Target.numbers

theorem Side.choice (side : Side) : Json.choice? name all false (.string side.name) = some side := by
  cases side <;> rfl

theorem OrderPlan.recovers (plan : OrderPlan) :
    Recovers ofJson? plan.toJson (∀ n ∈ plan.numbers, n.isFinite = true) plan := by
  intro found
  have areTargets := Json.recovers_list fun target (_ : target ∈ plan.targets) => target.recovers
  have inTargets : (∀ n ∈ plan.targets.flatMap Target.numbers, n.isFinite = true) ↔
      ∀ target ∈ plan.targets, ∀ n ∈ target.numbers, n.isFinite = true := List.forall_mem_flatMap
  simp only [numbers, List.forall_mem_append, inTargets]
  show (do
    return OrderPlan.mk plan.id plan.symbol (← Json.choice? Side.name Side.all false (.string plan.side.name))
      (← PriceSlot.ofJson? plan.zoneLow.toJson.written) (← PriceSlot.ofJson? plan.zoneHigh.toJson.written)
      (← (Json.float plan.quantity).written.number?) (← PriceSlot.ofJson? plan.stop.toJson.written)
      (← Json.list? Target.ofJson? (Json.array (plan.targets.map Target.toJson)).written)) = some found ↔ _
  simp [Option.bind_eq_some_iff, Side.choice, plan.zoneLow.recovers _, plan.zoneHigh.recovers _,
    Json.recovers_float plan.quantity _, plan.stop.recovers _, areTargets _, and_assoc]

/-! ### Strategies -/

theorem FeatureKind.choice (kind : FeatureKind) : Json.choice? name all false (.string kind.name) = some kind := by
  cases kind <;> rfl

theorem Json.fieldUnlessNull_of_ne {name : String} {value : Json} (notNull : value ≠ .null) :
    fieldUnlessNull name value = [(name, value)] := by
  cases value with
  | null => contradiction
  | bool | int | float | string | array | object => rfl

/-- Parameters are dropped when they are null, and are null when they are missing. -/
theorem FeatureDescriptor.recovers {descriptor : FeatureDescriptor} (freeForm : descriptor.params.IsFreeForm) :
    Recovers ofJson? descriptor.toJson True descriptor := by
  intro found
  obtain ⟨name, kind, dependencies, params⟩ := descriptor
  have areDependencies := Json.recovers_list fun name (_ : name ∈ dependencies) => Json.recovers_string name
  have isWritten : params.written = params := Json.written_of_finite params freeForm.finite
  have isCanonical : params.canonical = params := freeForm.canonical
  by_cases null : params = .null
  · subst null
    show (do
      return FeatureDescriptor.mk name (← Json.choice? FeatureKind.name FeatureKind.all false (.string kind.name))
        (← Json.list? Json.string? (Json.array (dependencies.map .string)).written) Json.null.canonical) =
      some found ↔ _
    simp [Option.bind_eq_some_iff, FeatureKind.choice, areDependencies _, isCanonical]
  · rw [toJson, Json.fieldUnlessNull_of_ne null]
    show (do
      return FeatureDescriptor.mk name (← Json.choice? FeatureKind.name FeatureKind.all false (.string kind.name))
        (← Json.list? Json.string? (Json.array (dependencies.map .string)).written) params.written.canonical) =
      some found ↔ _
    simp [Option.bind_eq_some_iff, FeatureKind.choice, areDependencies _, isWritten, isCanonical]

namespace Strategy

/-- The numbers of a strategy. -/
def numbers (strategy : Strategy) : List Float :=
  strategy.transitions.flatMap (fun transition => transition.guard.numbers) ++
    strategy.orderPlans.flatMap OrderPlan.numbers ++ [strategy.maxRisk]

/-- What the fields of a strategy can hold: parameters of any form, and timers of 32 bits. -/
structure IsStorable (strategy : Strategy) : Prop where
  params : ∀ descriptor ∈ strategy.featurePlan, descriptor.params.IsFreeForm
  timers : ∀ transition ∈ strategy.transitions, ∀ action ∈ transition.actions, action.Fits
  timeout : strategy.execution.entryTimeoutBars ≤ Json.limit32

theorem choice_timeframe (timeframe : Timeframe) :
    Json.choice? Timeframe.name Timeframe.all false (.string timeframe.name) = some timeframe := by
  cases timeframe <;> rfl

theorem recovers_execution {execution : Execution} (fits : execution.entryTimeoutBars ≤ Json.limit32) :
    Recovers executionOfJson? (.object [("entryTimeoutBars", .int execution.entryTimeoutBars),
      ("rthOnly", .bool execution.regularHoursOnly)]) True execution := by
  intro found
  show (do
    return Execution.mk (← Json.nat? Json.limit32 (.int execution.entryTimeoutBars)) execution.regularHoursOnly) =
    some found ↔ _
  simp [Json.nat?, fits]

theorem recovers_risk (limit : Float) :
    Recovers riskOfJson? (.object [("maxRiskPerTrade", .float limit)]) (limit.isFinite = true) limit := by
  intro found
  exact Json.recovers_float limit found

theorem recovers {strategy : Strategy} (storable : strategy.IsStorable) :
    Recovers ofJson? strategy.toJson (∀ n ∈ strategy.numbers, n.isFinite = true) strategy := by
  intro found
  have arePlanned := Json.recovers_list fun descriptor member =>
    FeatureDescriptor.recovers (storable.params descriptor member)
  have areTransitions := Json.recovers_list fun transition member =>
    Transition.recovers (storable.timers transition member)
  have areOrderPlans := Json.recovers_list fun plan (_ : plan ∈ strategy.orderPlans) => plan.recovers
  have inTransitions : (∀ n ∈ strategy.transitions.flatMap (fun transition => transition.guard.numbers),
      n.isFinite = true) ↔ ∀ transition ∈ strategy.transitions, ∀ n ∈ transition.guard.numbers, n.isFinite = true :=
    List.forall_mem_flatMap
  have inOrderPlans : (∀ n ∈ strategy.orderPlans.flatMap OrderPlan.numbers, n.isFinite = true) ↔
      ∀ plan ∈ strategy.orderPlans, ∀ n ∈ plan.numbers, n.isFinite = true := List.forall_mem_flatMap
  have isExecution := recovers_execution storable.timeout
  have isRisk := recovers_risk strategy.maxRisk
  simp only [numbers, List.forall_mem_append, inTransitions, inOrderPlans]
  show (do
    return Strategy.mk strategy.name strategy.symbol
      (← Json.choice? Timeframe.name Timeframe.all false (.string strategy.timeframe.name))
      (← Json.choice? Stage.name Stage.all false (.string strategy.start.name))
      (← Json.list? FeatureDescriptor.ofJson? (Json.array (strategy.featurePlan.map FeatureDescriptor.toJson)).written)
      (← Json.list? Transition.ofJson? (Json.array (strategy.transitions.map Transition.toJson)).written)
      (← Json.list? OrderPlan.ofJson? (Json.array (strategy.orderPlans.map OrderPlan.toJson)).written)
      (← executionOfJson? (Json.object [("entryTimeoutBars", .int strategy.execution.entryTimeoutBars),
        ("rthOnly", .bool strategy.execution.regularHoursOnly)]).written)
      (← riskOfJson? (Json.object [("maxRiskPerTrade", .float strategy.maxRisk)]).written)) = some found ↔ _
  simp [-Json.written_object, Option.bind_eq_some_iff, choice_timeframe, Stage.choice, arePlanned _, areTransitions _,
    areOrderPlans _, isExecution _, isRisk _, and_assoc]

end Strategy

end TradingStrategy

import TradingStrategy.Proofs.Expr.Agreement
import TradingStrategy.Proofs.Feature.Independence
import TradingStrategy.Proofs.Run.Gate
import TradingStrategy.Proofs.Run.Shadowing

/-!
Resolved plans as fixpoints.

Owns:
- `OrderPlan.IsFixpoint`: a resolved plan that is its own resolution, with no order among its prices;
- `value_frozen`: the price of a checked slot is the same with the variables that are bound when it is resolved as with
  all variables of the resolved plan;
- `resolve_iff_fixpoint`: a checked plan is resolved to its fixpoint and to nothing else;
- `frozen_plan_is_fixpoint`: so is every plan that is compiled with the default catalogue.

A place sees only prices that are fixed before its own, and no name of the default catalogue is that of a variable. So it
makes no difference that the variables that are fixed later are bound as well.
-/

namespace TradingStrategy

open OrderPlan (zoneBindings)

/-- No declared name is that of a runtime variable. -/
def LeavesVariables (declared : List String) : Prop :=
  ∀ name ∈ declared, name ∉ runtimeVariables

namespace ResolvedPlan

/-- The variables that are bound when the prices of a place are resolved. -/
def bindingsAt (plan : ResolvedPlan) : Scope → List (String × Float)
  | .arm | .entryZone => []
  | .stopPrice => zoneBindings plan.entryLow plan.entryHigh
  | .target => zoneBindings plan.entryLow plan.entryHigh ++ [("stop", plan.stop)]
  | .trigger | .invalidate => plan.bindings

/-- The prices that a place sees are those that are frozen in the end. -/
theorem valueOf?_bindingsAt (plan : ResolvedPlan) {scope : Scope} {name : String} (seen : name ∈ scope.visible) :
    valueOf? name (plan.bindingsAt scope) = valueOf? name plan.bindings := by
  cases scope with
  | arm | entryZone => exact absurd seen List.not_mem_nil
  | trigger | invalidate => rfl
  | stopPrice =>
    simp only [Scope.visible, List.mem_cons, List.not_mem_nil, or_false] at seen
    rcases seen with rfl | rfl | rfl <;> rfl
  | target =>
    simp only [Scope.visible, List.mem_cons, List.not_mem_nil, or_false] at seen
    rcases seen with rfl | rfl | rfl | rfl <;> rfl

theorem bindings_runtime (plan : ResolvedPlan) : ∀ name ∈ plan.bindings.map Prod.fst, name ∈ runtimeVariables := by
  intro name bound
  simp only [bindings, List.map_append, List.mem_append, List.map_cons, List.map_nil, List.map_map, List.mem_cons,
    List.not_mem_nil, or_false, List.mem_map, Function.comp_apply] at bound
  rcases bound with (rfl | rfl | rfl | rfl) | ⟨_, _, rfl⟩ <;> decide

theorem bindingsAt_runtime (plan : ResolvedPlan) (scope : Scope) :
    ∀ name ∈ (plan.bindingsAt scope).map Prod.fst, name ∈ runtimeVariables := by
  cases scope with
  | arm | entryZone => exact fun _ bound => absurd bound List.not_mem_nil
  | trigger | invalidate => exact plan.bindings_runtime
  | stopPrice => simp [bindingsAt, zoneBindings, runtimeVariables]
  | target => simp [bindingsAt, zoneBindings, runtimeVariables]

end ResolvedPlan

theorem valueOf?_eq_none {name : String} {bindings : List (String × Float)}
    (runtime : ∀ name ∈ bindings.map Prod.fst, name ∈ runtimeVariables) (free : name ∉ runtimeVariables) :
    valueOf? name bindings = none :=
  Option.not_isSome_iff_eq_none.mp (mt (Pipeline.valueOf?_isSome name bindings).mp (mt (runtime name) free))

/-- A checked price is the same with the variables that are bound when it is resolved as with all variables of the
resolved plan. -/
theorem PriceSlot.value_frozen {declared : List String} {scope : Scope} {slot : PriceSlot}
    (checked : slot.Checked declared scope) (leaves : LeavesVariables declared) (history : History)
    (plan : ResolvedPlan) : slot.value ⟨history, plan.bindingsAt scope⟩ = slot.value ⟨history, plan.bindings⟩ := by
  cases slot with
  | literal price => rfl
  | expression price source placeholder =>
    have fits : price.Checked declared scope := checked
    have builtinFree : ∀ name ∈ builtinFeatures, name ∉ runtimeVariables := by decide
    refine evaluateNumber_congr (EvalContext.agreesOn_of_bindings rfl fun name named => ?_)
    have known := fits.named name named
    simp only [inScope, isBuiltin, Bool.or_eq_true, List.contains_iff_mem] at known
    rcases known with feature | seen
    · have free : name ∉ runtimeVariables := feature.elim (leaves name) (builtinFree name)
      rw [valueOf?_eq_none (plan.bindingsAt_runtime scope) free, valueOf?_eq_none plan.bindings_runtime free]
    · exact plan.valueOf?_bindingsAt seen

namespace OrderPlan

variable {plan : OrderPlan} {history : History} {resolved : ResolvedPlan}

/-- A resolved plan of which every price is the value of its slot with all its own variables bound. The prices are
finite, and all else is taken over from the order plan. -/
structure IsFixpoint (plan : OrderPlan) (history : History) (resolved : ResolvedPlan) : Prop where
  low : plan.zoneLow.value ⟨history, resolved.bindings⟩ = .ok resolved.entryLow
  high : plan.zoneHigh.value ⟨history, resolved.bindings⟩ = .ok resolved.entryHigh
  stop : plan.stop.value ⟨history, resolved.bindings⟩ = .ok resolved.stop
  targets : plan.targets.map (fun target => target.price.value ⟨history, resolved.bindings⟩) =
    resolved.targets.map fun target => .ok target.price
  ratios : resolved.targets.map ResolvedTarget.ratio = plan.targets.map Target.ratio
  finite : ∀ price ∈ resolved.prices, price.isFinite = true
  inOrder : resolved.entryLow ≤ resolved.entryHigh
  planId : resolved.planId = plan.id
  symbol : resolved.symbol = plan.symbol
  side : resolved.side = plan.side
  quantity : resolved.quantity = plan.quantity

/-- A checked plan is resolved to its fixpoint and to nothing else. -/
theorem resolve_iff_fixpoint {declared : List String} (checked : plan.Checked declared)
    (leaves : LeavesVariables declared) : plan.resolve history = .ok resolved ↔ plan.IsFixpoint history resolved := by
  have low := PriceSlot.value_frozen checked.zoneLow leaves history resolved
  have high := PriceSlot.value_frozen checked.zoneHigh leaves history resolved
  have stop := PriceSlot.value_frozen checked.stop leaves history resolved
  have targets : plan.targets.map (fun target => target.price.value ⟨history, resolved.bindingsAt .target⟩) =
      plan.targets.map fun target => target.price.value ⟨history, resolved.bindings⟩ :=
    List.map_congr_left fun target member => PriceSlot.value_frozen (checked.targets target member) leaves history resolved
  constructor
  · intro done
    have steps := resolve_steps done
    obtain ⟨finite, inOrder⟩ := resolve_prices done
    exact {
      low := low.symm.trans (resolveSlot_reads steps.low)
      high := high.symm.trans (resolveSlot_reads steps.high)
      stop := stop.symm.trans (resolveSlot_reads steps.stop)
      targets := targets.symm.trans (resolveTargets_reads steps.targets)
      ratios := resolveTargets_ratios steps.targets
      finite := finite
      inOrder := inOrder
      planId := steps.planId
      symbol := steps.symbol
      side := steps.side
      quantity := steps.quantity }
  · intro fixpoint
    obtain ⟨lowFinite, highFinite, stopFinite, targetFinite⟩ := ResolvedPlan.forall_prices.mp fixpoint.finite
    apply resolve_of_steps
    exact {
      low := resolveSlot_of_value (low.trans fixpoint.low) lowFinite
      high := resolveSlot_of_value (high.trans fixpoint.high) highFinite
      inOrder := (Number.le_iff_not_lt (Number.isNumber_of_finite lowFinite)
        (Number.isNumber_of_finite highFinite)).mp fixpoint.inOrder
      stop := resolveSlot_of_value (stop.trans fixpoint.stop) stopFinite
      targets := resolveTargets_of_values (targets.trans fixpoint.targets) fixpoint.ratios targetFinite 0
      planId := fixpoint.planId
      symbol := fixpoint.symbol
      side := fixpoint.side
      quantity := fixpoint.quantity }

end OrderPlan

namespace StrategyDocument

/-- A document that compiles declares only features that its registry contains. -/
theorem compile_declared {registry : Registry} {document : StrategyDocument} {strategy : Strategy}
    (compiled : document.compile registry = .ok strategy) :
    ∀ name ∈ document.featureNames, registry.contains name = true := by
  unfold compile at compiled
  obtain ⟨_, known, _⟩ := bind_eq_ok compiled
  have known := lift_eq_ok known
  unfold Registry.checkDeclared at known
  split at known
  · next noneUnknown =>
    intro name declared
    by_cases builtin : isBuiltin name = true
    · rw [Registry.contains, builtin, Bool.true_or]
    · have registered : name ∈ document.registeredNames := List.mem_filter.mpr ⟨declared, by simp [builtin]⟩
      simpa using List.filter_eq_nil_iff.mp noneUnknown name registered
  · contradiction

/-- The default catalogue has no feature with the name of a variable. -/
theorem compile_leavesVariables {document : StrategyDocument} {strategy : Strategy}
    (compiled : document.compile .default = .ok strategy) : LeavesVariables document.featureNames := by
  have free : ∀ name ∈ Pipeline.defaultOrder, name ∉ runtimeVariables := by decide +kernel
  exact fun name declared => free name (Pipeline.default_contains.mp (compile_declared compiled name declared))

end StrategyDocument

/-- An order plan that is compiled with the default catalogue is resolved to the one plan whose prices are what its own
expressions evaluate to with all its variables bound. What each place sees while the plan is resolved is what is frozen
afterwards. -/
theorem frozen_plan_is_fixpoint {json : Json} {strategy : Strategy} {plan : OrderPlan}
    (compiled : Strategy.ofDocument .default json = .ok strategy) (member : plan ∈ strategy.orderPlans)
    (history : History) (resolved : ResolvedPlan) :
    (plan.resolve history = .ok resolved ↔ plan.IsFixpoint history resolved) ∧
      ∀ scope : Scope, ∀ name ∈ scope.visible,
        valueOf? name (resolved.bindingsAt scope) = valueOf? name resolved.bindings := by
  obtain ⟨document, valid, compiled⟩ := bind_eq_ok compiled
  obtain ⟨_, targets⟩ := StrategyDocument.validate_plans (lift_eq_ok valid)
  obtain ⟨index, declaration, declared, isPlan⟩ := StrategyDocument.compile_plans compiled plan member
  have checked := (StrategyDocument.compilePlan_checked (targets declaration declared) isPlan).1
  refine ⟨OrderPlan.resolve_iff_fixpoint checked (StrategyDocument.compile_leavesVariables compiled), ?_⟩
  exact fun scope name seen => resolved.valueOf?_bindingsAt seen

set_option maxRecDepth 100000 in
/-- The breakout strategy beside a declared average resolves its stop from the zone and its target from both. -/
theorem breakout_plan_is_fixpoint :
    ∃ strategy plan resolved, Strategy.ofDocument .default (breakoutWithFeature "ema_20") = .ok strategy ∧
      plan ∈ strategy.orderPlans ∧ plan.resolve firstHistory = .ok resolved ∧ resolved.stop = 96 ∧
      plan.stop.value ⟨firstHistory, resolved.bindings⟩ = .ok 96 := by
  have resolves : (Strategy.ofDocument .default (breakoutWithFeature "ema_20")).toOption.any (fun strategy =>
      strategy.orderPlans.head?.any fun plan => (plan.resolve firstHistory).toOption.any fun resolved =>
        decide (resolved.stop = 96)) = true := by decide +kernel
  obtain ⟨strategy, compiled, first⟩ := ok_of_any resolves
  obtain ⟨plan, isFirst, done⟩ := (Option.any_eq_true _ _).mp first
  obtain ⟨resolved, done, stop⟩ := ok_of_any done
  have member := List.mem_of_mem_head? isFirst
  have stop : resolved.stop = 96 := of_decide_eq_true stop
  have fixpoint := (frozen_plan_is_fixpoint compiled member firstHistory resolved).1.mp done
  exact ⟨strategy, plan, resolved, compiled, member, done, stop, stop ▸ fixpoint.stop⟩

end TradingStrategy

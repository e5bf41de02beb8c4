import TradingStrategy.Proofs.Document.Soundness
import TradingStrategy.Proofs.Order.Legs

/-!
Order plans whose prices are all fixed.

Owns:
- `ResolvedPlan.fixed`: the order plan that fixes every price of a resolved plan;
- `literal?_eq_some`: the plans that are resolved without a history are these and no others;
- `compilePlan_fixed`: what the schema has checked of the fixed prices of a compiled plan;
- `Strategy.ofDocument_fixed`: over every history, a compiled plan is resolved to what it is resolved to without one.

A plan with fixed prices that no schema has checked need not be resolved over any history: its prices can be infinite,
and its zone can be upside down.
-/

namespace TradingStrategy

/-! ### Plans that fix every price -/

theorem PriceSlot.literal?_eq_some {slot : PriceSlot} {price : Float} :
    slot.literal? = some price ↔ slot = .literal price := by
  cases slot <;> simp [literal?]

theorem PriceSlot.isLiteral_iff {slot : PriceSlot} : slot.isLiteral = true ↔ ∃ price, slot = .literal price := by
  simp only [isLiteral, Option.isSome_iff_exists, literal?_eq_some]

/-- The target that fixes the price of a resolved one. -/
def ResolvedTarget.fixed (target : ResolvedTarget) : Target :=
  ⟨.literal target.price, target.ratio⟩

/-- The order plan that fixes every price of a resolved one. -/
def ResolvedPlan.fixed (plan : ResolvedPlan) : OrderPlan where
  id := plan.planId
  symbol := plan.symbol
  side := plan.side
  zoneLow := .literal plan.entryLow
  zoneHigh := .literal plan.entryHigh
  quantity := plan.quantity
  stop := .literal plan.stop
  targets := plan.targets.map ResolvedTarget.fixed

namespace Target

/-- The resolved form of a target whose price is fixed. -/
def literal? (target : Target) : Option ResolvedTarget :=
  target.price.literal?.map fun price => ⟨price, target.ratio⟩

theorem literal?_eq_some {target : Target} {resolved : ResolvedTarget} :
    target.literal? = some resolved ↔ target = resolved.fixed := by
  obtain ⟨slot, ratio⟩ := target
  obtain ⟨price, part⟩ := resolved
  simp [literal?, ResolvedTarget.fixed, Option.map_eq_some_iff, PriceSlot.literal?_eq_some]

theorem mapM_literal?_eq_some {targets : List Target} {resolved : List ResolvedTarget} :
    targets.mapM literal? = some resolved ↔ targets = resolved.map ResolvedTarget.fixed := by
  induction targets generalizing resolved with
  | nil => cases resolved <;> simp
  | cons first rest inductionHypothesis =>
    cases resolved with
    | nil => simp [Option.bind_eq_some_iff]
    | cons head tail => simp [Option.bind_eq_some_iff, literal?_eq_some, inductionHypothesis]

/-- Targets with fixed prices are those of some resolved targets. -/
theorem exists_fixed {targets : List Target} (areLiteral : ∀ target ∈ targets, target.price.isLiteral = true) :
    ∃ resolved : List ResolvedTarget, targets = resolved.map ResolvedTarget.fixed := by
  induction targets with
  | nil => exact ⟨[], rfl⟩
  | cons first rest inductionHypothesis =>
    obtain ⟨tail, isTail⟩ := inductionHypothesis fun target member => areLiteral target (List.mem_cons_of_mem _ member)
    obtain ⟨price, isPrice⟩ := PriceSlot.isLiteral_iff.mp (areLiteral first List.mem_cons_self)
    refine ⟨⟨price, first.ratio⟩ :: tail, ?_⟩
    rw [List.map_cons, ← isTail, ResolvedTarget.fixed, ← isPrice]

end Target

namespace OrderPlan

variable {plan : OrderPlan} {resolved : ResolvedPlan}

/-- A plan is resolved without a history if and only if it fixes the prices of what it is resolved to. -/
theorem literal?_eq_some : plan.literal? = some resolved ↔ plan = resolved.fixed := by
  constructor
  · intro isLiteral
    obtain ⟨targets, areTargets, isLiteral⟩ := Option.bind_eq_some_iff.mp isLiteral
    obtain ⟨low, isLow, isLiteral⟩ := Option.bind_eq_some_iff.mp isLiteral
    obtain ⟨high, isHigh, isLiteral⟩ := Option.bind_eq_some_iff.mp isLiteral
    obtain ⟨stop, isStop, isLiteral⟩ := Option.bind_eq_some_iff.mp isLiteral
    have low := PriceSlot.literal?_eq_some.mp isLow
    have high := PriceSlot.literal?_eq_some.mp isHigh
    have stop := PriceSlot.literal?_eq_some.mp isStop
    have targets := Target.mapM_literal?_eq_some.mp areTargets
    rw [← Option.some.inj isLiteral, ResolvedPlan.fixed, ← low, ← high, ← stop, ← targets]
  · rintro rfl
    have targets := Target.mapM_literal?_eq_some.mpr (rfl : resolved.targets.map ResolvedTarget.fixed = _)
    exact Option.bind_eq_some_iff.mpr ⟨resolved.targets, targets, rfl⟩

theorem isLiteral_iff : plan.isLiteral = true ↔ ∃ resolved : ResolvedPlan, plan = resolved.fixed := by
  simp only [isLiteral, Bool.and_eq_true, List.all_eq_true]
  constructor
  · rintro ⟨⟨⟨low, high⟩, stop⟩, targets⟩
    obtain ⟨low, isLow⟩ := PriceSlot.isLiteral_iff.mp low
    obtain ⟨high, isHigh⟩ := PriceSlot.isLiteral_iff.mp high
    obtain ⟨stop, isStop⟩ := PriceSlot.isLiteral_iff.mp stop
    obtain ⟨targets, areTargets⟩ := Target.exists_fixed targets
    refine ⟨⟨plan.id, plan.symbol, plan.side, low, high, plan.quantity, stop, targets⟩, ?_⟩
    rw [ResolvedPlan.fixed, ← isLow, ← isHigh, ← isStop, ← areTargets]
  · rintro ⟨resolved, rfl⟩
    refine ⟨⟨⟨rfl, rfl⟩, rfl⟩, fun target member => ?_⟩
    obtain ⟨source, _, rfl⟩ := List.mem_map.mp member
    rfl

/-- A plan is resolved without a history if and only if all its prices are fixed. -/
theorem literal?_isSome (plan : OrderPlan) : plan.literal?.isSome = plan.isLiteral := by
  rw [Bool.eq_iff_iff, Option.isSome_iff_exists, isLiteral_iff]
  exact exists_congr fun resolved => literal?_eq_some

end OrderPlan

/-- Fixed prices in order are what every history resolves their plan to. -/
theorem ResolvedPlan.resolve_fixed {resolved : ResolvedPlan}
    (finite : ∀ price ∈ resolved.prices, price.isFinite = true) (inOrder : resolved.entryLow ≤ resolved.entryHigh)
    (history : History) : resolved.fixed.resolve history = .ok resolved := by
  obtain ⟨lowFinite, highFinite, stopFinite, targetFinite⟩ := forall_prices.mp finite
  apply OrderPlan.resolve_of_steps
  exact {
    low := OrderPlan.resolveSlot_of_value rfl lowFinite
    high := OrderPlan.resolveSlot_of_value rfl highFinite
    inOrder := (Number.le_iff_not_lt (Number.isNumber_of_finite lowFinite)
      (Number.isNumber_of_finite highFinite)).mp inOrder
    stop := OrderPlan.resolveSlot_of_value rfl stopFinite
    targets := OrderPlan.resolveTargets_of_values (by rw [fixed, List.map_map]; rfl)
      (by rw [fixed, List.map_map]; rfl) targetFinite 0
    planId := rfl
    symbol := rfl
    side := rfl
    quantity := rfl }

/-! ### Fixed prices of compiled plans -/

namespace StrategyDocument

/-- A fixed price was a number in the document. -/
theorem priceSlot_literal {declared : List String} {scope : Scope} {place : Json.Path} {spec : PriceSpec}
    {price : Float} (compiled : priceSlot declared scope place spec = .ok (.literal price)) :
    spec = .literal price := by
  cases spec with
  | literal value => rw [PriceSlot.literal.inj (Except.ok.inj compiled)]
  | expression text =>
    obtain ⟨e, _, compiled⟩ := bind_eq_ok compiled
    nomatch Except.ok.inj compiled

theorem priceSlot_positive {declared : List String} {scope : Scope} {place : Json.Path} {spec : PriceSpec}
    {price : Float} (sound : spec.IsSound) (compiled : priceSlot declared scope place spec = .ok (.literal price)) :
    isPositive price = true := by
  rw [priceSlot_literal compiled] at sound
  exact Bool.and_eq_true_iff.mpr ⟨sound.1, decide_eq_true sound.2⟩

/-- The fixed prices of a plan that is compiled from a sound declaration are positive, and its zone is in order. -/
theorem compilePlan_fixed {declared : List String} {index : Nat} {declaration : PlanDeclaration}
    {resolved : ResolvedPlan} (sound : declaration.IsSound)
    (compiled : compilePlan declared index declaration = .ok resolved.fixed) :
    (∀ price ∈ resolved.prices, isPositive price = true) ∧ resolved.entryLow ≤ resolved.entryHigh := by
  unfold compilePlan at compiled
  obtain ⟨low, isLow, compiled⟩ := bind_eq_ok compiled
  obtain ⟨high, isHigh, compiled⟩ := bind_eq_ok compiled
  obtain ⟨stop, isStop, compiled⟩ := bind_eq_ok compiled
  obtain ⟨targets, areTargets, compiled⟩ := bind_eq_ok compiled
  have same := Except.ok.inj compiled
  obtain rfl : low = .literal resolved.entryLow := congrArg OrderPlan.zoneLow same
  obtain rfl : high = .literal resolved.entryHigh := congrArg OrderPlan.zoneHigh same
  obtain rfl : stop = .literal resolved.stop := congrArg OrderPlan.stop same
  obtain rfl : targets = resolved.targets.map ResolvedTarget.fixed := congrArg OrderPlan.targets same
  have inOrder := sound.inOrder resolved.entryLow resolved.entryHigh (priceSlot_literal isLow) (priceSlot_literal isHigh)
  have targetPositive : ∀ target ∈ resolved.targets, isPositive target.price = true := by
    intro target member
    obtain ⟨position, given, isGiven, step⟩ := forEachAt_origin areTargets target.fixed (List.mem_map_of_mem member)
    obtain ⟨slot, isSlot, step⟩ := bind_eq_ok step
    obtain rfl : slot = .literal target.price := congrArg Target.price (Except.ok.inj step)
    exact priceSlot_positive (sound.targets given isGiven).price isSlot
  exact ⟨ResolvedPlan.forall_prices.mpr ⟨priceSlot_positive sound.zoneLow isLow,
    priceSlot_positive sound.zoneHigh isHigh, priceSlot_positive sound.stop isStop, targetPositive⟩, inOrder⟩

end StrategyDocument

/-- Over every history, a compiled plan is resolved to what it is resolved to without one. -/
theorem Strategy.ofDocument_fixed {registry : Registry} {json : Json} {strategy : Strategy} {plan : OrderPlan}
    {resolved : ResolvedPlan} (compiled : Strategy.ofDocument registry json = .ok strategy)
    (member : plan ∈ strategy.orderPlans) (isLiteral : plan.literal? = some resolved) (history : History) :
    plan.resolve history = .ok resolved := by
  obtain ⟨document, valid, compiled⟩ := bind_eq_ok compiled
  have sound := StrategyDocument.validate_sound (lift_eq_ok valid)
  obtain ⟨index, declaration, declared, isPlan⟩ := StrategyDocument.compile_plans compiled plan member
  obtain rfl := OrderPlan.literal?_eq_some.mp isLiteral
  obtain ⟨positive, inOrder⟩ := StrategyDocument.compilePlan_fixed (sound.orderPlans declaration declared) isPlan
  exact resolved.resolve_fixed (fun price among => (Bool.and_eq_true_iff.mp (positive price among)).1) inOrder history

end TradingStrategy

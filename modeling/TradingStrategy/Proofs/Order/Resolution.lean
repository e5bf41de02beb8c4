import TradingStrategy.Proofs.Strategy.Blueprint

/-!
Resolution of checked order plans.

Owns:
- `OrderPlan.ResolvesTo`: all that the resolution of a plan does, of which what follows is derived, and no more than it
  does;
- what a resolved plan takes over from its plan;
- the names that the contexts of a resolution know: the features of the newest snapshot and the prices that are already
  fixed;
- `resolve_unforeseeable`: the resolution of a checked plan over a history that knows the declared features fails in no
  lookup that a check of scopes could have found.
-/

namespace TradingStrategy

/-- A history knows the declared and the builtin features: its newest snapshot has them. -/
def History.Serves (history : History) (declared : List String) : Prop :=
  ∃ snapshot, history.latest? = some snapshot ∧
    ∀ name, name ∈ declared ∨ isBuiltin name = true → (snapshot.get? name).isSome

/-- A resolution that fails in an evaluation fails there with an error that no check of scopes can foresee. -/
def ResolveError.IsUnforeseeable : ResolveError → Prop
  | evaluation error => error.IsUnforeseeable
  | notFinite .. | zone .. => True

/-- With the variables of a scope bound, and runtime variables only, a history serves the scope. -/
theorem History.Serves.context {history : History} {declared : List String} {scope : Scope}
    {bindings : List (String × Float)} (serves : history.Serves declared)
    (visible : ∀ name ∈ scope.visible, name ∈ bindings.map Prod.fst)
    (binds : ∀ name ∈ bindings.map Prod.fst, name ∈ runtimeVariables) :
    EvalContext.Serves ⟨history, bindings⟩ declared scope where
  knows name known := by
    simp only [inScope, Bool.or_eq_true, List.contains_iff_mem] at known
    rcases known with feature | bound
    · obtain ⟨snapshot, latest, present⟩ := serves
      exact .inr ⟨snapshot, latest, present name feature⟩
    · exact .inl ((Pipeline.valueOf?_isSome name bindings).mpr (visible name bound))
  binds name bound := binds name ((Pipeline.valueOf?_isSome name bindings).mp bound)

theorem PriceSlot.value_unforeseeable {context : EvalContext} {declared : List String} {scope : Scope}
    (serves : context.Serves declared scope) {slot : PriceSlot} (checked : slot.Checked declared scope)
    {error : EvalError} (failed : slot.value context = .error error) : error.IsUnforeseeable := by
  cases slot with
  | literal value => contradiction
  | expression price source placeholder => exact evaluateNumber_unforeseeable serves checked failed

namespace OrderPlan

variable {plan : OrderPlan} {declared : List String}

/-- The variables that are bound when the stop of a plan is resolved. -/
def zoneBindings (low high : Float) : List (String × Float) :=
  [("eL", low), ("eH", high), ("entry", (low + high) / 2.0)]

/-- The resolution of a plan step by step: each price is that of its slot in the context of the prices before it. -/
structure ResolvesTo (plan : OrderPlan) (history : History) (resolved : ResolvedPlan) : Prop where
  low : plan.resolveSlot .zoneLow plan.zoneLow (.ofHistory history) = .ok resolved.entryLow
  high : plan.resolveSlot .zoneHigh plan.zoneHigh (.ofHistory history) = .ok resolved.entryHigh
  inOrder : ¬resolved.entryHigh < resolved.entryLow
  stop : plan.resolveSlot .stop plan.stop ⟨history, zoneBindings resolved.entryLow resolved.entryHigh⟩ =
    .ok resolved.stop
  targets : plan.resolveTargets
    ⟨history, zoneBindings resolved.entryLow resolved.entryHigh ++ [("stop", resolved.stop)]⟩ 0 plan.targets =
      .ok resolved.targets
  planId : resolved.planId = plan.id
  symbol : resolved.symbol = plan.symbol
  side : resolved.side = plan.side
  quantity : resolved.quantity = plan.quantity

theorem resolve_steps {history : History} {resolved : ResolvedPlan} (done : plan.resolve history = .ok resolved) :
    plan.ResolvesTo history resolved := by
  unfold resolve at done
  obtain ⟨low, isLow, done⟩ := bind_eq_ok done
  obtain ⟨high, isHigh, done⟩ := bind_eq_ok done
  split at done
  · contradiction
  · next inOrder =>
    obtain ⟨stop, isStop, done⟩ := bind_eq_ok done
    obtain ⟨targets, areTargets, done⟩ := bind_eq_ok done
    rw [← Except.ok.inj done]
    exact ⟨isLow, isHigh, inOrder, isStop, areTargets, rfl, rfl, rfl, rfl⟩

theorem resolve_of_steps {history : History} {resolved : ResolvedPlan} (steps : plan.ResolvesTo history resolved) :
    plan.resolve history = .ok resolved := by
  have inOrder := steps.inOrder
  have stop := steps.stop
  have targets := steps.targets
  unfold zoneBindings at stop targets
  obtain ⟨id, symbol, side, low, high, quantity, stopPrice, resolvedTargets⟩ := resolved
  obtain rfl : id = plan.id := steps.planId
  obtain rfl : symbol = plan.symbol := steps.symbol
  obtain rfl : side = plan.side := steps.side
  obtain rfl : quantity = plan.quantity := steps.quantity
  unfold resolve
  rw [steps.low, steps.high]
  simp only [bind, Except.bind, if_neg inOrder, pure, Except.pure, stop, targets]

theorem resolveSlot_unforeseeable {context : EvalContext} {scope : Scope} (serves : context.Serves declared scope)
    {field : PriceField} {slot : PriceSlot} (checked : slot.Checked declared scope) {error : ResolveError}
    (failed : plan.resolveSlot field slot context = .error error) : error.IsUnforeseeable := by
  unfold resolveSlot at failed
  split at failed
  · next inner evaluated =>
    rw [← Except.error.inj failed]
    exact PriceSlot.value_unforeseeable serves checked evaluated
  · split at failed
    · contradiction
    · rw [← Except.error.inj failed]
      trivial

theorem resolveTargets_unforeseeable {context : EvalContext} (serves : context.Serves declared .target)
    {targets : List Target} (checked : ∀ target ∈ targets, target.price.Checked declared .target) {index : Nat}
    {error : ResolveError} (failed : plan.resolveTargets context index targets = .error error) :
    error.IsUnforeseeable := by
  induction targets generalizing index with
  | nil => contradiction
  | cons first rest inductionHypothesis =>
    rw [resolveTargets] at failed
    rcases bind_eq_error failed with failed | ⟨price, _, failed⟩
    · exact resolveSlot_unforeseeable serves (checked first (by simp)) failed
    · rcases bind_eq_error failed with failed | ⟨others, _, failed⟩
      · exact inductionHypothesis (fun target member => checked target (by simp [member])) failed
      · contradiction

theorem resolveSlot_reads {field : PriceField} {slot : PriceSlot} {context : EvalContext} {price : Float}
    (resolved : plan.resolveSlot field slot context = .ok price) : slot.value context = .ok price := by
  unfold resolveSlot at resolved
  split at resolved
  · contradiction
  · next evaluated =>
    split at resolved
    · rw [evaluated, Except.ok.inj resolved]
    · contradiction

theorem resolveTargets_reads {context : EvalContext} {targets : List Target} {index : Nat}
    {resolved : List ResolvedTarget} (done : plan.resolveTargets context index targets = .ok resolved) :
    targets.map (fun target => target.price.value context) = resolved.map fun target => .ok target.price := by
  induction targets generalizing index resolved with
  | nil =>
    rw [← Except.ok.inj done]
    rfl
  | cons first rest inductionHypothesis =>
    rw [resolveTargets] at done
    obtain ⟨price, isPrice, done⟩ := bind_eq_ok done
    obtain ⟨others, areOthers, done⟩ := bind_eq_ok done
    rw [← Except.ok.inj done, List.map_cons, List.map_cons, resolveSlot_reads isPrice, inductionHypothesis areOthers]

theorem resolveSlot_of_value {field : PriceField} {slot : PriceSlot} {context : EvalContext} {price : Float}
    (evaluated : slot.value context = .ok price) (finite : price.isFinite = true) :
    plan.resolveSlot field slot context = .ok price := by
  rw [resolveSlot, evaluated]
  exact if_pos finite

/-- Targets are resolved one by one, so nothing but their values and ratios counts. -/
theorem resolveTargets_of_values {context : EvalContext} {targets : List Target} {resolved : List ResolvedTarget}
    (values : targets.map (fun target => target.price.value context) = resolved.map fun target => .ok target.price)
    (ratios : resolved.map ResolvedTarget.ratio = targets.map Target.ratio)
    (finite : ∀ target ∈ resolved, target.price.isFinite = true) (index : Nat) :
    plan.resolveTargets context index targets = .ok resolved := by
  induction targets generalizing resolved index with
  | nil =>
    rw [List.map_nil, List.map_eq_nil_iff] at ratios
    rw [ratios, resolveTargets]
  | cons first rest inductionHypothesis =>
    cases resolved with
    | nil => contradiction
    | cons head tail =>
      obtain ⟨price, ratio⟩ := head
      simp only [List.map_cons, List.cons.injEq] at values ratios
      obtain ⟨isPrice, restValues⟩ := values
      obtain ⟨isRatio, restRatios⟩ := ratios
      have others := inductionHypothesis restValues restRatios
        (fun target member => finite target (List.mem_cons_of_mem _ member)) (index + 1)
      rw [resolveTargets, resolveSlot_of_value isPrice (finite ⟨price, ratio⟩ List.mem_cons_self), others, isRatio]
      rfl

theorem resolveTargets_length {context : EvalContext} {targets : List Target} {index : Nat}
    {resolved : List ResolvedTarget} (done : plan.resolveTargets context index targets = .ok resolved) :
    resolved.length = targets.length := by
  induction targets generalizing index resolved with
  | nil => rw [← Except.ok.inj done]; rfl
  | cons first rest inductionHypothesis =>
    rw [resolveTargets] at done
    obtain ⟨price, _, done⟩ := bind_eq_ok done
    obtain ⟨others, areOthers, done⟩ := bind_eq_ok done
    rw [← Except.ok.inj done, List.length_cons, List.length_cons, inductionHypothesis areOthers]

theorem resolve_keeps {history : History} {resolved : ResolvedPlan} (done : plan.resolve history = .ok resolved) :
    resolved.planId = plan.id ∧ resolved.targets.length = plan.targets.length :=
  have steps := resolve_steps done
  ⟨steps.planId, resolveTargets_length steps.targets⟩

/-- A checked plan is resolved over a history that knows its features without a lookup that finds nothing. -/
theorem resolve_unforeseeable {history : History} (serves : history.Serves declared) (checked : plan.Checked declared)
    {error : ResolveError} (failed : plan.resolve history = .error error) : error.IsUnforeseeable := by
  have zoneServes : EvalContext.Serves (.ofHistory history) declared .entryZone :=
    serves.context (by simp [Scope.visible]) (by simp)
  unfold resolve at failed
  rcases bind_eq_error failed with failed | ⟨low, _, failed⟩
  · exact resolveSlot_unforeseeable zoneServes checked.zoneLow failed
  rcases bind_eq_error failed with failed | ⟨high, _, failed⟩
  · exact resolveSlot_unforeseeable zoneServes checked.zoneHigh failed
  split at failed
  · rw [← Except.error.inj failed]
    trivial
  -- From here on the zone is bound, and behind the stop also the stop.
  rcases bind_eq_error failed with failed | ⟨stop, _, failed⟩
  · exact resolveSlot_unforeseeable
      (serves.context (by simp [Scope.visible]) (by simp [runtimeVariables])) checked.stop failed
  rcases bind_eq_error failed with failed | ⟨targets, _, failed⟩
  · exact resolveTargets_unforeseeable
      (serves.context (by simp [Scope.visible]) (by simp [runtimeVariables])) checked.targets failed
  · contradiction

end OrderPlan

/-- The runtime variables of a plan with a target are bound, and nothing else is. -/
theorem ResolvedPlan.bindings_names {plan : ResolvedPlan} (hasTarget : plan.targets ≠ []) :
    plan.bindings.map Prod.fst = runtimeVariables := by
  match listed : plan.targets with
  | [] => exact absurd listed hasTarget
  | first :: rest => simp [bindings, firstTarget?, listed, runtimeVariables]

end TradingStrategy

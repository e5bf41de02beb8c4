import TradingStrategy.Proofs.Number.Sums
import TradingStrategy.Proofs.Order.Resolution

/-!
Prices of resolved plans, and what their brackets carry.

Owns:
- that all prices of a resolved plan are finite and that its entry zone is in order, since finite numbers can be
  compared;
- that every leg of a bracket carries the id and the symbol of its plan, and that a bracket is never empty.
-/

namespace TradingStrategy

/-! ### Finite numbers -/

/-- Of two finite numbers, the first is at most the second if the second is not below it. -/
theorem le_of_finite_of_not_lt {a b : Float} (finiteA : a.isFinite = true) (finiteB : b.isFinite = true)
    (notBelow : ¬b < a) : a ≤ b :=
  (Number.le_iff_not_lt (Number.isNumber_of_finite finiteA) (Number.isNumber_of_finite finiteB)).mpr notBelow

/-! ### Resolved prices -/

theorem ResolvedPlan.forall_prices {plan : ResolvedPlan} {holds : Float → Prop} :
    (∀ price ∈ plan.prices, holds price) ↔ holds plan.entryLow ∧ holds plan.entryHigh ∧ holds plan.stop ∧
      ∀ target ∈ plan.targets, holds target.price := by
  simp [prices]

namespace OrderPlan

variable {plan : OrderPlan}

theorem resolveSlot_finite {field : PriceField} {slot : PriceSlot} {context : EvalContext} {price : Float}
    (resolved : plan.resolveSlot field slot context = .ok price) : price.isFinite = true := by
  unfold resolveSlot at resolved
  split at resolved
  · contradiction
  · split at resolved
    · next finite =>
      rw [← Except.ok.inj resolved]
      exact finite
    · contradiction

theorem resolveTargets_finite {context : EvalContext} {targets : List Target} {index : Nat}
    {resolved : List ResolvedTarget} (done : plan.resolveTargets context index targets = .ok resolved) :
    ∀ target ∈ resolved, target.price.isFinite = true := by
  induction targets generalizing index resolved with
  | nil =>
    rw [← Except.ok.inj done]
    simp
  | cons first rest inductionHypothesis =>
    rw [resolveTargets] at done
    obtain ⟨price, isPrice, done⟩ := bind_eq_ok done
    obtain ⟨others, areOthers, done⟩ := bind_eq_ok done
    rw [← Except.ok.inj done]
    intro target member
    rcases List.mem_cons.mp member with rfl | member
    · exact resolveSlot_finite isPrice
    · exact inductionHypothesis areOthers target member

/-- All prices of a resolved plan are finite, and the bottom of its entry zone is not above the top. -/
theorem resolve_prices {history : History} {resolved : ResolvedPlan} (done : plan.resolve history = .ok resolved) :
    (∀ price ∈ resolved.prices, price.isFinite = true) ∧ resolved.entryLow ≤ resolved.entryHigh := by
  have steps := resolve_steps done
  have lowFinite := resolveSlot_finite steps.low
  have highFinite := resolveSlot_finite steps.high
  exact ⟨ResolvedPlan.forall_prices.mpr
    ⟨lowFinite, highFinite, resolveSlot_finite steps.stop, resolveTargets_finite steps.targets⟩,
    le_of_finite_of_not_lt lowFinite highFinite steps.inOrder⟩

end OrderPlan

/-! ### Brackets -/

namespace ResolvedPlan

variable {plan : ResolvedPlan}

theorem targetLegs_carry (targets : List ResolvedTarget) (index : Nat) :
    ∀ leg ∈ plan.targetLegs index targets, leg.planId = plan.planId ∧ leg.symbol = plan.symbol := by
  induction targets generalizing index with
  | nil => simp [targetLegs]
  | cons target rest inductionHypothesis =>
    rw [targetLegs]
    split
    · exact inductionHypothesis (index + 1)
    · intro leg member
      rcases List.mem_cons.mp member with rfl | member
      · exact ⟨rfl, rfl⟩
      · exact inductionHypothesis (index + 1) leg member

/-- A bracket has a leg, and all its legs carry the id and the symbol of their plan. -/
theorem bracket_carries {legs : List OrderLeg} (bracketed : plan.bracket = .ok legs) :
    legs ≠ [] ∧ ∀ leg ∈ legs, leg.planId = plan.planId ∧ leg.symbol = plan.symbol := by
  unfold bracket at bracketed
  split at bracketed
  · contradiction
  · rw [← Except.ok.inj bracketed]
    refine ⟨List.cons_ne_nil _ _, fun leg member => ?_⟩
    rcases List.mem_cons.mp member with rfl | member
    · exact ⟨rfl, rfl⟩
    · rcases List.mem_cons.mp member with rfl | member
      · exact ⟨rfl, rfl⟩
      · exact targetLegs_carry plan.targets 0 leg member

end ResolvedPlan

end TradingStrategy

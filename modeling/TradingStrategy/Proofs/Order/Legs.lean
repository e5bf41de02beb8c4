import TradingStrategy.Proofs.Number.Portion
import TradingStrategy.Proofs.Order.Prices

/-!
Quantities of the legs of compiled strategies.

Owns:
- that every target of a compiled strategy takes a part of the position, and keeps it when its plan is resolved;
- `bracket_positive`: every leg of such a plan has a quantity that a venue can take.

A part can be so small that nothing is left of it; then there is no leg for its target.
-/

namespace TradingStrategy

/-- A part of a position: at least nothing and at most all of it. -/
def IsPart (ratio : Float) : Prop :=
  0.0 ≤ ratio ∧ ratio ≤ 1.0

/-- Something is left of a part of a number above zero, if it is not at most zero. -/
theorem IsPart.positive {ratio whole : Float} (part : IsPart ratio) (positive : isPositive whole = true)
    (left : ¬whole * ratio ≤ 0.0) : isPositive (whole * ratio) = true := by
  have finite := Number.portion_finite positive part.1 part.2
  have above : 0.0 < whole * ratio := by
    by_contra notAbove
    exact left (le_of_finite_of_not_lt finite (by decide) notAbove)
  exact Bool.and_eq_true_iff.mpr ⟨finite, decide_eq_true above⟩

namespace StrategyDocument

/-- A compiled plan takes the quantity of its declaration and the ratios of its targets. -/
theorem compilePlan_takes {declared : List String} {index : Nat} {declaration : PlanDeclaration} {plan : OrderPlan}
    (compiled : compilePlan declared index declaration = .ok plan) :
    plan.quantity = declaration.quantity ∧
      plan.targets.map Target.ratio = declaration.targets.map TargetDeclaration.ratio := by
  unfold compilePlan at compiled
  obtain ⟨low, _, compiled⟩ := bind_eq_ok compiled
  obtain ⟨high, _, compiled⟩ := bind_eq_ok compiled
  obtain ⟨stop, _, compiled⟩ := bind_eq_ok compiled
  obtain ⟨targets, areTargets, compiled⟩ := bind_eq_ok compiled
  rw [← Except.ok.inj compiled]
  refine ⟨rfl, forEachAt_map (fun index item value step => ?_) areTargets⟩
  obtain ⟨price, _, step⟩ := bind_eq_ok step
  rw [← Except.ok.inj step]

theorem compile_plans {registry : Registry} {document : StrategyDocument} {strategy : Strategy}
    (compiled : document.compile registry = .ok strategy) :
    ∀ plan ∈ strategy.orderPlans, ∃ index, ∃ declaration ∈ document.orderPlans,
      compilePlan document.featureNames index declaration = .ok plan :=
  forEachAt_origin (compile_parts compiled).orderPlans

end StrategyDocument

theorem Strategy.ofDocument_parts {registry : Registry} {json : Json} {strategy : Strategy}
    (compiled : Strategy.ofDocument registry json = .ok strategy) :
    ∀ plan ∈ strategy.orderPlans, ∀ target ∈ plan.targets, IsPart target.ratio := by
  obtain ⟨document, valid, compiled⟩ := bind_eq_ok compiled
  intro plan member target isTarget
  obtain ⟨index, declaration, declared, step⟩ := StrategyDocument.compile_plans compiled plan member
  have among := List.mem_map_of_mem (f := Target.ratio) isTarget
  rw [(StrategyDocument.compilePlan_takes step).2] at among
  obtain ⟨given, isGiven, same⟩ := List.mem_map.mp among
  rw [← same]
  exact StrategyDocument.validate_ratios (lift_eq_ok valid) declaration declared given isGiven

namespace OrderPlan

variable {plan : OrderPlan}

theorem resolveTargets_ratios {context : EvalContext} {targets : List Target} {index : Nat}
    {resolved : List ResolvedTarget} (done : plan.resolveTargets context index targets = .ok resolved) :
    resolved.map ResolvedTarget.ratio = targets.map Target.ratio := by
  induction targets generalizing index resolved with
  | nil =>
    rw [← Except.ok.inj done]
    rfl
  | cons first rest inductionHypothesis =>
    rw [resolveTargets] at done
    obtain ⟨price, _, done⟩ := bind_eq_ok done
    obtain ⟨others, areOthers, done⟩ := bind_eq_ok done
    rw [← Except.ok.inj done, List.map_cons, List.map_cons, inductionHypothesis areOthers]

theorem resolve_parts {history : History} {resolved : ResolvedPlan} (done : plan.resolve history = .ok resolved)
    (parts : ∀ target ∈ plan.targets, IsPart target.ratio) : ∀ target ∈ resolved.targets, IsPart target.ratio := by
  intro target member
  have among := List.mem_map_of_mem (f := ResolvedTarget.ratio) member
  rw [resolveTargets_ratios (resolve_steps done).targets] at among
  obtain ⟨given, isGiven, same⟩ := List.mem_map.mp among
  rw [← same]
  exact parts given isGiven

end OrderPlan

namespace ResolvedPlan

variable {plan : ResolvedPlan}

theorem targetLegs_positive (quantity : isPositive plan.quantity = true) {targets : List ResolvedTarget}
    (parts : ∀ target ∈ targets, IsPart target.ratio) (index : Nat) :
    ∀ leg ∈ plan.targetLegs index targets, isPositive leg.quantity = true := by
  induction targets generalizing index with
  | nil => exact fun _ member => absurd member List.not_mem_nil
  | cons first rest inductionHypothesis =>
    have ofRest := inductionHypothesis (fun target member => parts target (List.mem_cons_of_mem first member)) (index + 1)
    rw [targetLegs]
    split
    · exact ofRest
    · next left =>
      intro leg member
      rcases List.mem_cons.mp member with rfl | member
      · exact (parts first List.mem_cons_self).positive quantity left
      · exact ofRest leg member

/-- The legs of a plan have quantities above zero, if its targets take parts of the position. -/
theorem bracket_positive {legs : List OrderLeg} (bracketed : plan.bracket = .ok legs)
    (parts : ∀ target ∈ plan.targets, IsPart target.ratio) : ∀ leg ∈ legs, isPositive leg.quantity = true := by
  unfold bracket at bracketed
  split at bracketed
  · contradiction
  · next faultless =>
    have quantity : isPositive plan.quantity = true := by
      unfold fault? at faultless
      split at faultless
      · contradiction
      · next positive => simpa using positive
    rw [← Except.ok.inj bracketed]
    intro leg member
    rcases List.mem_cons.mp member with rfl | member
    · exact quantity
    · rcases List.mem_cons.mp member with rfl | member
      · exact quantity
      · exact targetLegs_positive quantity parts 0 leg member

end ResolvedPlan

end TradingStrategy

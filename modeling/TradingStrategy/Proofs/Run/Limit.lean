import TradingStrategy.Proofs.Document.Values
import TradingStrategy.Proofs.Number.Undefined
import TradingStrategy.Proofs.Run.Gate

/-!
What the risk gate says of doubles that are no numbers.

Owns:
- `ResolvedPlan.IsBeyondMeasure`: the plans whose worst loss cannot be compared with a limit;
- `gate_verdict`: the gate refuses all that is not within its limit but for those plans, and no order plan of a compiled
  strategy is one of them.

The gate asks for a risk above zero, but it only refuses a loss above the limit. Every ordering with what is no number is
false. So no number as a risk is refused, and no number as a loss or as a limit is let pass.
-/

namespace TradingStrategy

namespace ResolvedPlan

variable {plan : ResolvedPlan} {limit : Float}

/-- The worst loss of a plan and a limit cannot be compared, for one of them is no number. -/
def IsBeyondMeasure (plan : ResolvedPlan) (limit : Float) : Prop :=
  limit = Number.nan ∨ plan.quantity = Number.nan ∨
    plan.assess.perUnit.isInf = true ∧ (plan.quantity == 0.0) = true

/-- A loss that is not above a limit is within it, or there is no comparing the two. -/
theorem not_above_limit (atRisk : 0.0 < plan.assess.perUnit) :
    ¬limit < plan.assess.worst ↔ plan.assess.worst ≤ limit ∨ plan.IsBeyondMeasure limit := by
  have product : plan.assess.worst = plan.assess.perUnit * plan.quantity := rfl
  rw [Number.not_lt_iff, IsBeyondMeasure, product, Number.mul_eq_nan_iff atRisk]

/-- A positive quantity has a loss, and a limit that is a number can be compared with it. -/
theorem not_beyondMeasure (quantity : isPositive plan.quantity = true) (number : Number.IsNumber limit) :
    ¬plan.IsBeyondMeasure limit := by
  obtain ⟨significand, exponent, canonical, unpacked⟩ := Number.unpack_of_positive quantity
  rintro (none | none | ⟨_, zero⟩)
  · exact Number.isNumber_iff.mp number none
  · rw [Number.eq_nan_iff, unpacked] at none
    contradiction
  · rw [Number.beq_zero_of_unpack unpacked] at zero
    contradiction

end ResolvedPlan

theorem Strategy.ofDocument_maxRisk_finite {registry : Registry} {json : Json} {strategy : Strategy}
    (compiled : Strategy.ofDocument registry json = .ok strategy) : strategy.maxRisk.isFinite = true := by
  obtain ⟨document, valid, compiled⟩ := bind_eq_ok compiled
  rw [(StrategyDocument.compile_parts compiled).maxRisk]
  exact StrategyDocument.validate_maxRisk_finite (lift_eq_ok valid)

/-- A plan passes the gate if and only if it risks something and its worst loss is within the limit or cannot be compared
with it. A plan of a compiled strategy always can, so that nothing above its limit passes. -/
theorem gate_verdict (plan : ResolvedPlan) (limit : Float) (assessment : RiskAssessment) :
    (plan.gate limit = .ok assessment ↔
      assessment = plan.assess ∧ 0.0 < assessment.perUnit ∧
        (assessment.worst ≤ limit ∨ plan.IsBeyondMeasure limit)) ∧
    ∀ (registry : Registry) (json : Json) (strategy : Strategy) (orderPlan : OrderPlan) (history : History),
      Strategy.ofDocument registry json = .ok strategy → orderPlan ∈ strategy.orderPlans →
        orderPlan.resolve history = .ok plan → limit = strategy.maxRisk →
          (plan.gate limit = .ok assessment ↔
            assessment = plan.assess ∧ 0.0 < assessment.perUnit ∧ assessment.worst ≤ limit) := by
  have verdict : plan.gate limit = .ok assessment ↔
      assessment = plan.assess ∧ 0.0 < assessment.perUnit ∧
        (assessment.worst ≤ limit ∨ plan.IsBeyondMeasure limit) := by
    rw [ResolvedPlan.gate_eq_ok]
    constructor
    · rintro ⟨rfl, atRisk, notAbove⟩
      exact ⟨rfl, atRisk, (ResolvedPlan.not_above_limit atRisk).mp notAbove⟩
    · rintro ⟨rfl, atRisk, within⟩
      exact ⟨rfl, atRisk, (ResolvedPlan.not_above_limit atRisk).mpr within⟩
  refine ⟨verdict, ?_⟩
  rintro registry json strategy orderPlan history compiled member done rfl
  have quantity : isPositive plan.quantity = true := by
    rw [(OrderPlan.resolve_steps done).quantity]
    exact (Strategy.ofDocument_sound compiled orderPlan member).quantity
  have measured : ¬plan.IsBeyondMeasure strategy.maxRisk :=
    ResolvedPlan.not_beyondMeasure quantity
      (Number.isNumber_of_finite (Strategy.ofDocument_maxRisk_finite compiled))
  rw [verdict, or_iff_left measured]

/-- A buy in the zone from 100 to 101 with a stop at 95. -/
def boughtQuantity (quantity : Float) : ResolvedPlan :=
  ⟨"primary", "SPY", .buy, 100, 101, quantity, 95, [⟨125, 1⟩]⟩

/-- A quantity that is no number, and a limit that is none, let a plan pass whose worst loss is not within the limit. -/
theorem gate_passes_undefined_loss :
    ((boughtQuantity Number.nan).gate 1000 = .ok (boughtQuantity Number.nan).assess ∧
      ¬(boughtQuantity Number.nan).assess.worst ≤ 1000) ∧
    ((boughtQuantity 10).gate Number.nan = .ok (boughtQuantity 10).assess ∧
      ¬(boughtQuantity 10).assess.worst ≤ Number.nan) := by
  have loss : (boughtQuantity Number.nan).assess.worst = Number.nan := Number.mul_nan _
  refine ⟨⟨?_, ?_⟩, ?_, Number.not_le_nan _⟩
  · exact ResolvedPlan.gate_eq_ok.mpr ⟨rfl, by decide +kernel, by rw [loss]; exact Number.not_lt_nan _⟩
  · rw [loss]
    exact Number.not_nan_le _
  · exact ResolvedPlan.gate_eq_ok.mpr ⟨rfl, by decide +kernel, Number.not_nan_lt _⟩

set_option maxRecDepth 100000 in
/-- The breakout strategy with a stop below its zone risks something, and no more than its limit. A plan whose quantity
is no number passes any limit. -/
theorem breakout_gate_verdict :
    (∃ strategy plan resolved assessment, Strategy.ofDocument .empty (breakoutWithStop "eL - 4") = .ok strategy ∧
      plan ∈ strategy.orderPlans ∧ plan.resolve firstHistory = .ok resolved ∧
      resolved.gate strategy.maxRisk = .ok assessment ∧ 0.0 < assessment.perUnit ∧
      assessment.worst ≤ strategy.maxRisk) ∧
    ∀ limit, (boughtQuantity Number.nan).gate limit = .ok (boughtQuantity Number.nan).assess := by
  have below : firstPlanGated (breakoutWithStop "eL - 4") (fun _ => true) = true := by decide +kernel
  obtain ⟨strategy, plan, resolved, assessment, compiled, member, done, _, gated, _⟩ := firstPlanGated_ok below
  obtain ⟨_, ofCompiled⟩ := gate_verdict resolved strategy.maxRisk assessment
  obtain ⟨_, atRisk, within⟩ := (ofCompiled .empty _ strategy plan firstHistory compiled member done rfl).mp gated
  refine ⟨⟨strategy, plan, resolved, assessment, compiled, member, done, gated, atRisk, within⟩, fun limit => ?_⟩
  exact (gate_verdict _ limit _).1.mpr ⟨rfl, by decide +kernel, .inr (.inr (.inl rfl))⟩

end TradingStrategy

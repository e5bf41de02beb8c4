import TradingStrategy.Proofs.Document.Soundness
import TradingStrategy.Proofs.Number.Differences
import TradingStrategy.Proofs.Order.Legs
import TradingStrategy.Proofs.Run.Lookups
import TradingStrategy.Venue.Paper

/-!
The risk gate against the structural check.

Owns:
- `OrderPlan.IsSound`: what the structural check asks of a plan next to its prices, which every compiled plan has;
- `ResolvedPlan.StopInZone` and `stopFault`: the plans about which the two disagree, and what the check says of them;
- `gate_eq_ok`: what passes the gate;
- `gate_stop`: where the stop of a plan is that passes the gate;
- `gated_bracket`: a plan that passes the gate is refused by the check if and only if its stop lies in its entry zone.

The gate measures the risk from the worst fill, which is the far end of the zone, and the check asks for a stop beyond
the near end. So a stop between them has a risk, and the venue rejects what the gate has let pass.
-/

namespace TradingStrategy

/-! ### Compiled plans -/

/-- What the structural check asks of a plan next to its prices. -/
structure OrderPlan.IsSound (plan : OrderPlan) : Prop where
  quantity : isPositive plan.quantity = true
  hasTarget : plan.targets ≠ []
  ratios : ¬ratioLimit < sumOf (plan.targets.map Target.ratio)

/-- The ratios of sound targets keep below their limit also if they are added up from the negative zero. -/
theorem PlanDeclaration.IsSound.sumOf_ratios {plan : PlanDeclaration} (sound : plan.IsSound) :
    ¬ratioLimit < sumOf (plan.targets.map TargetDeclaration.ratio) := by
  rw [(Number.sumOf_alike _).lt, List.foldl_map]
  exact (StrategyDocument.ratioSum_le_iff sound.targets).mp sound.ratios

namespace StrategyDocument

theorem compilePlan_sound {declared : List String} {index : Nat} {declaration : PlanDeclaration} {plan : OrderPlan}
    (sound : declaration.IsSound) (compiled : compilePlan declared index declaration = .ok plan) : plan.IsSound := by
  obtain ⟨quantity, ratios⟩ := compilePlan_takes compiled
  refine ⟨?_, ?_, ?_⟩
  · rw [quantity]
    simpa [isPositive] using sound.quantity
  · intro none
    rw [none, List.map_nil] at ratios
    exact sound.hasTarget (List.map_eq_nil_iff.mp ratios.symm)
  · rw [ratios]
    exact sound.sumOf_ratios

end StrategyDocument

/-- The order plans of a compiled strategy are sound. -/
theorem Strategy.ofDocument_sound {registry : Registry} {json : Json} {strategy : Strategy}
    (compiled : Strategy.ofDocument registry json = .ok strategy) : ∀ plan ∈ strategy.orderPlans, plan.IsSound := by
  obtain ⟨document, valid, compiled⟩ := bind_eq_ok compiled
  have sound := StrategyDocument.validate_sound (lift_eq_ok valid)
  intro plan member
  obtain ⟨index, declaration, declared, isPlan⟩ := StrategyDocument.compile_plans compiled plan member
  exact StrategyDocument.compilePlan_sound (sound.orderPlans declaration declared) isPlan

/-! ### The stop of a plan -/

namespace ResolvedPlan

variable {plan : ResolvedPlan}

/-- The stop lies in the entry zone, its ends included. -/
def StopInZone (plan : ResolvedPlan) : Prop :=
  plan.entryLow ≤ plan.stop ∧ plan.stop ≤ plan.entryHigh

/-- The stop is on the side of the worst fill where the plan loses. -/
def StopBehindFill (plan : ResolvedPlan) : Prop :=
  match plan.side with
  | .buy => plan.stop < plan.entryHigh
  | .sell => plan.entryLow < plan.stop

/-- What the structural check says of a stop that it does not accept. -/
def stopFault (plan : ResolvedPlan) : PlanFault :=
  match plan.side with
  | .buy => .buyStop plan.stop plan.entryLow
  | .sell => .sellStop plan.stop plan.entryHigh

/-- What passes the gate, over all doubles. -/
theorem gate_eq_ok {limit : Float} {assessment : RiskAssessment} :
    plan.gate limit = .ok assessment ↔
      assessment = plan.assess ∧ 0.0 < assessment.perUnit ∧ ¬limit < assessment.worst := by
  unfold gate
  by_cases atRisk : 0.0 < plan.assess.perUnit
  · by_cases above : limit < plan.assess.worst
    · simp only [atRisk, above, decide_true, Bool.not_true, Bool.false_eq_true, if_false, if_true, reduceCtorEq, false_iff]
      rintro ⟨rfl, _, within⟩
      exact within above
    · simp only [atRisk, above, decide_true, Bool.not_true, Bool.false_eq_true, if_false, Except.ok.injEq]
      constructor
      · rintro rfl
        exact ⟨rfl, atRisk, above⟩
      · exact fun ⟨same, _⟩ => same.symm
  · simp only [atRisk, decide_false, Bool.not_false, if_true, reduceCtorEq, false_iff]
    rintro ⟨rfl, risks, _⟩
    exact atRisk risks

/-- A plan with positive prices that passes the gate has its stop behind the worst fill. -/
theorem gate_stop {limit : Float} {assessment : RiskAssessment} (gated : plan.gate limit = .ok assessment)
    (positive : ∀ price ∈ plan.prices, isPositive price = true) : plan.StopBehindFill := by
  obtain ⟨rfl, atRisk, _⟩ := gate_eq_ok.mp gated
  obtain ⟨low, high, stop, _⟩ := forall_prices.mp positive
  unfold StopBehindFill
  unfold assess Side.gain worstFill at atRisk
  cases side : plan.side with
  | buy =>
    simp only [side] at atRisk
    exact Number.lt_of_neg_sub_pos stop high atRisk
  | sell =>
    simp only [side] at atRisk
    exact Number.lt_of_neg_sub_pos low stop atRisk

/-- With its stop behind the worst fill, a plan has a faulty stop if and only if the stop lies in the zone. -/
theorem stopFault?_eq (behind : plan.StopBehindFill) [Decidable plan.StopInZone] :
    plan.stopFault? = if plan.StopInZone then some plan.stopFault else none := by
  unfold StopBehindFill at behind
  unfold stopFault? stopFault StopInZone
  cases side : plan.side with
  | buy =>
    simp only [side] at behind
    simp [Number.le_of_lt behind]
  | sell =>
    simp only [side] at behind
    simp [Number.le_of_lt behind]

/-- Nothing but the stop can be wrong with a plan in order whose prices are positive. -/
theorem fault?_eq_stopFault? (quantity : isPositive plan.quantity = true)
    (positive : ∀ price ∈ plan.prices, isPositive price = true) (inOrder : plan.entryLow ≤ plan.entryHigh)
    (hasTarget : plan.targets ≠ []) (ratios : ¬ratioLimit < plan.ratioSum) : plan.fault? = plan.stopFault? := by
  have noPrice : plan.prices.find? (fun price => !isPositive price) = none :=
    List.find?_eq_none.mpr fun price member => by simp [positive price member]
  have notUpsideDown : ¬plan.entryHigh < plan.entryLow := by
    obtain ⟨low, high, _⟩ := forall_prices.mp positive
    exact (Number.le_iff_not_lt (Number.isNumber_of_finite (Bool.and_eq_true_iff.mp low).1)
      (Number.isNumber_of_finite (Bool.and_eq_true_iff.mp high).1)).mp inOrder
  have noFault : plan.targets.isEmpty = false := by simpa using hasTarget
  simp only [fault?, quantity, noPrice, notUpsideDown, noFault, ratios, Bool.not_true, Bool.false_eq_true, if_false]
  cases plan.stopFault? <;> rfl

end ResolvedPlan

/-- The risk gate and the structural check agree on an order plan of a compiled strategy but for stops in the entry
zone. A plan that passes the gate has its stop behind the worst fill. It has a bracket if and only if the stop is not in
the zone as well, and otherwise every venue rejects it for its stop. -/
theorem gated_bracket {registry : Registry} {json : Json} {strategy : Strategy} {plan : OrderPlan} {history : History}
    {resolved : ResolvedPlan} {limit : Float} {assessment : RiskAssessment}
    (compiled : Strategy.ofDocument registry json = .ok strategy) (member : plan ∈ strategy.orderPlans)
    (done : plan.resolve history = .ok resolved) (positive : ∀ price ∈ resolved.prices, 0.0 < price)
    (gated : resolved.gate limit = .ok assessment) :
    resolved.StopBehindFill ∧
      ((∃ legs, resolved.bracket = .ok legs) ↔ ¬resolved.StopInZone) ∧
      (resolved.StopInZone → ∀ (σ : Type) (venue : Venue σ) (environment : Environment) (world : World σ),
        venue.submit environment resolved world = (.error (.rejected (.plan resolved.stopFault)), world)) := by
  classical
  have sound := Strategy.ofDocument_sound compiled plan member
  obtain ⟨finite, inOrder⟩ := OrderPlan.resolve_prices done
  have steps := OrderPlan.resolve_steps done
  have sameRatios := OrderPlan.resolveTargets_ratios steps.targets
  have allPositive : ∀ price ∈ resolved.prices, isPositive price = true := fun price among =>
    Bool.and_eq_true_iff.mpr ⟨finite price among, decide_eq_true (positive price among)⟩
  have hasTarget : resolved.targets ≠ [] := by
    intro none
    rw [none, List.map_nil] at sameRatios
    exact sound.hasTarget (List.map_eq_nil_iff.mp sameRatios.symm)
  have behind := ResolvedPlan.gate_stop gated allPositive
  have fault : resolved.fault? = if resolved.StopInZone then some resolved.stopFault else none := by
    rw [← ResolvedPlan.stopFault?_eq behind]
    exact ResolvedPlan.fault?_eq_stopFault? (steps.quantity ▸ sound.quantity) allPositive inOrder hasTarget
      (by rw [ResolvedPlan.ratioSum, sameRatios]; exact sound.ratios)
  refine ⟨behind, ?_, ?_⟩
  · by_cases inZone : resolved.StopInZone
    · rw [if_pos inZone] at fault
      simp [ResolvedPlan.bracket, fault, inZone]
    · rw [if_neg inZone] at fault
      simp [ResolvedPlan.bracket, fault, inZone]
  · intro inZone σ venue environment world
    rw [if_pos inZone] at fault
    simp [Venue.submit, ResolvedPlan.bracket, fault]

/-! ### Stops of the breakout strategy -/

/-- The breakout strategy with another stop. -/
def breakoutWithStop (stop : String) : Json :=
  .object [
    ("meta", .object [("name", .string "breakout"), ("symbol", .string "ACME"), ("timeframe", .string "1m")]),
    ("rules", .object [
      ("arm", .string "close > open"),
      ("trigger", .string "close > entry && close[1] > stop"),
      ("invalidate", .object [("when_any", .array [.string "close < stop"])])]),
    ("orderPlans", .array [.object [
      ("id", .string "primary"), ("side", .string "buy"), ("qty", .int 10),
      ("entryZone", .array [.string "close - 1", .string "close"]), ("stopPrice", .string stop),
      ("targets", .array [.object [("price", .string "entry + 20"), ("ratioOfPosition", .int 1)]])]]),
    ("risk", .object [("maxRiskPerTrade", .int 100)])]

/-- The history behind the first rising bar. -/
def firstHistory : History :=
  (History.empty maxHistory).push (.ofBar ⟨"ACME", ⟨60, 0⟩, 100, 101, 99, 101, 1000⟩)

/-- The first order plan of a document passes the gate over the first history, and its prices pass a test. -/
def firstPlanGated (json : Json) (test : ResolvedPlan → Bool) : Bool :=
  (Strategy.ofDocument .empty json).toOption.any fun strategy =>
    strategy.orderPlans.head?.any fun plan =>
      (plan.resolve firstHistory).toOption.any fun resolved =>
        (resolved.gate strategy.maxRisk).toOption.any fun _ =>
          decide (∀ price ∈ resolved.prices, 0.0 < price) && test resolved

theorem firstPlanGated_ok {json : Json} {test : ResolvedPlan → Bool} (gated : firstPlanGated json test = true) :
    ∃ strategy plan resolved assessment, Strategy.ofDocument .empty json = .ok strategy ∧
      plan ∈ strategy.orderPlans ∧ plan.resolve firstHistory = .ok resolved ∧
      (∀ price ∈ resolved.prices, 0.0 < price) ∧ resolved.gate strategy.maxRisk = .ok assessment ∧
      test resolved = true := by
  obtain ⟨strategy, compiled, gated⟩ := ok_of_any gated
  obtain ⟨plan, first, gated⟩ := (Option.any_eq_true _ _).mp gated
  obtain ⟨resolved, done, gated⟩ := ok_of_any gated
  obtain ⟨assessment, passed, gated⟩ := ok_of_any gated
  obtain ⟨positive, tested⟩ := Bool.and_eq_true_iff.mp gated
  exact ⟨strategy, plan, resolved, assessment, compiled, List.mem_of_mem_head? first, done,
    of_decide_eq_true positive, passed, tested⟩

/-- The structural fault for which a venue rejects what a bar submits. -/
def Turn.planFault? {σ : Type} (turn : Turn σ) : Option PlanFault :=
  match turn.result with
  | .error (.venue (.rejected (.plan fault))) => some fault
  | _ => none

set_option maxRecDepth 100000 in
/-- A stop at the middle of the zone passes the gate with half a point of risk. It is no stop for the structural check,
and when the trigger fires, the error of the venue is the result of the bar. -/
theorem gate_passes_stop_in_zone :
    ∃ strategy engine plan resolved assessment,
      Strategy.ofDocument .empty (breakoutWithStop "entry") = .ok strategy ∧
      plan ∈ strategy.orderPlans ∧ plan.resolve firstHistory = .ok resolved ∧
      (∀ price ∈ resolved.prices, 0.0 < price) ∧ resolved.gate strategy.maxRisk = .ok assessment ∧
      resolved.fault? = some (.buyStop 100.5 100) ∧
      Engine.ofStrategy strategy .empty liveOptions = .ok engine ∧
      (engine.turnAfter PaperScript.plain.venue ⟨0, .empty⟩ (risingBars.take 1)
        ⟨"ACME", ⟨120, 0⟩, 101, 103, 100, 102, 1000⟩).planFault? = some (.buyStop 100.5 100) := by
  have gated : firstPlanGated (breakoutWithStop "entry") (fun resolved =>
      decide (resolved.fault? = some (.buyStop 100.5 100))) = true := by decide +kernel
  have passed : Engine.passes .empty (breakoutWithStop "entry") liveOptions (fun engine => decide (
      (engine.turnAfter PaperScript.plain.venue ⟨0, .empty⟩ (risingBars.take 1)
        ⟨"ACME", ⟨120, 0⟩, 101, 103, 100, 102, 1000⟩).planFault? = some (.buyStop 100.5 100))) = true := by
    decide +kernel
  obtain ⟨strategy, plan, resolved, assessment, compiled, member, done, positive, accepted, faulty⟩ :=
    firstPlanGated_ok gated
  obtain ⟨other, engine, otherCompiled, bound, rejected⟩ := Engine.passes_binds passed
  rw [compiled] at otherCompiled
  obtain rfl := Except.ok.inj otherCompiled
  exact ⟨strategy, engine, plan, resolved, assessment, compiled, member, done, positive, accepted,
    of_decide_eq_true faulty, bound, of_decide_eq_true rejected⟩

set_option maxRecDepth 100000 in
/-- A stop below the zone has a bracket, and one in the zone has none. -/
theorem breakout_gated_bracket :
    (∃ strategy plan resolved assessment, Strategy.ofDocument .empty (breakoutWithStop "eL - 4") = .ok strategy ∧
      plan ∈ strategy.orderPlans ∧ plan.resolve firstHistory = .ok resolved ∧
      (∀ price ∈ resolved.prices, 0.0 < price) ∧ resolved.gate strategy.maxRisk = .ok assessment ∧
      ∃ legs, resolved.bracket = .ok legs) ∧
    ∃ strategy plan resolved assessment, Strategy.ofDocument .empty (breakoutWithStop "entry") = .ok strategy ∧
      plan ∈ strategy.orderPlans ∧ plan.resolve firstHistory = .ok resolved ∧
      (∀ price ∈ resolved.prices, 0.0 < price) ∧ resolved.gate strategy.maxRisk = .ok assessment ∧
      resolved.StopInZone ∧ resolved.stop < resolved.entryHigh := by
  have below : firstPlanGated (breakoutWithStop "eL - 4") (fun resolved =>
      decide ¬resolved.entryLow ≤ resolved.stop) = true := by decide +kernel
  have within : firstPlanGated (breakoutWithStop "entry") (fun resolved => decide (
      resolved.entryLow ≤ resolved.stop ∧ resolved.stop ≤ resolved.entryHigh ∧ resolved.side = .buy)) = true := by
    decide +kernel
  constructor
  · obtain ⟨strategy, plan, resolved, assessment, compiled, member, done, positive, accepted, outside⟩ :=
      firstPlanGated_ok below
    obtain ⟨_, bracketed, _⟩ := gated_bracket compiled member done positive accepted
    exact ⟨strategy, plan, resolved, assessment, compiled, member, done, positive, accepted,
      bracketed.mpr fun inZone => of_decide_eq_true outside inZone.1⟩
  · obtain ⟨strategy, plan, resolved, assessment, compiled, member, done, positive, accepted, inside⟩ :=
      firstPlanGated_ok within
    obtain ⟨low, high, side⟩ := of_decide_eq_true inside
    obtain ⟨behind, _, _⟩ := gated_bracket compiled member done positive accepted
    rw [ResolvedPlan.StopBehindFill, side] at behind
    exact ⟨strategy, plan, resolved, assessment, compiled, member, done, positive, accepted, ⟨low, high⟩, behind⟩

end TradingStrategy

import TradingStrategy.Command.Text
import TradingStrategy.Proofs.Order.Fixed
import TradingStrategy.Proofs.Run.Gate
import TradingStrategy.Proofs.Run.Lookups
import TradingStrategy.Venue.Paper

/-!
What is printed of a plan without a history, and what a run does with it.

Owns:
- `Strategy.printedRisk`: the printed lines about the risk of an order plan;
- `Engine.Trades`: a run freezes and submits one plan only, and its gate and its log say of it what is printed;
- `preview_is_traded`: so does every run of a compiled strategy whose order plan has fixed prices.
-/

namespace TradingStrategy

/-! ### Printed lines -/

namespace Strategy

variable {strategy : Strategy} {plan : OrderPlan} {resolved : ResolvedPlan}

/-- What is printed of the risk of a plan: the lines behind the plan and its targets. -/
def printedRisk (strategy : Strategy) (plan : OrderPlan) : List String :=
  (strategy.planLines plan).drop (1 + plan.targets.length)

theorem numbered_length {α : Type} (line : Nat → α → String) (number : Nat) (items : List α) :
    (numbered line number items).length = items.length := by
  induction items generalizing number with
  | nil => rfl
  | cons first rest inductionHypothesis => rw [numbered, List.length_cons, List.length_cons, inductionHypothesis]

/-- Of a plan with fixed prices, the risk is printed that it has when it is resolved. -/
theorem printedRisk_literal (isLiteral : plan.literal? = some resolved) :
    strategy.printedRisk plan = strategy.riskLines resolved := by
  have targets := numbered_length targetLine 1 plan.targets
  rw [printedRisk, planLines, isLiteral, Nat.add_comm, List.cons_append, List.drop_succ_cons, ← targets,
    List.drop_left]

/-- The line with the figures of an assessment. -/
def figuresLine (strategy : Strategy) (risk : RiskAssessment) : String :=
  "    worst-case risk " ++ Number.fixed 2 risk.worst ++ " (max " ++ Number.fixed 2 strategy.maxRisk ++ "), rr worst " ++
    Number.fixed 2 risk.ratio ++ " [" ++ (ratioLabel? risk.ratio).getD "below 1:1" ++ "], rr weighted " ++
    Number.fixed 2 risk.weightedRatio

theorem riskLines_refused {reason : RiskRefusal} (gated : resolved.gate strategy.maxRisk = .error reason) :
    strategy.riskLines resolved = [strategy.figuresLine resolved.assess, "    warning: " ++ reason.message] := by
  rw [riskLines, gated]
  rfl

theorem riskLines_passed {assessment : RiskAssessment} (gated : resolved.gate strategy.maxRisk = .ok assessment) :
    strategy.riskLines resolved = [strategy.figuresLine resolved.assess] := by
  rw [riskLines, gated]
  rfl

end Strategy

/-! ### Runs with one plan -/

namespace Engine

variable {σ : Type} {engine : Engine} {plan : ResolvedPlan} {venue : Venue σ} {world : World σ}

/-- What a turn can do in an engine that has one plan. -/
structure TurnsOn (engine : Engine) (plan : ResolvedPlan) (venue : Venue σ) (world : World σ)
    (timestamp : Calendar.Instant) (turn : Turn σ) : Prop where
  resolved : ∀ error, turn.result ≠ .error (.resolve error)
  refused : ∀ stage reason, turn.result = .ok (.refused stage reason) →
    plan.gate engine.strategy.maxRisk = .error reason
  placed : turn.result = .ok (.moved .armed .placed) →
    plan.gate engine.strategy.maxRisk = .ok plan.assess ∧
      (∃ orders, (venue.submit engine.options.environment plan world).1 = .ok orders) ∧
      ⟨timestamp, .placed, .riskAccepted plan.assess.worst engine.strategy.maxRisk plan.assess.ratio⟩ ∈ turn.state.log

/-- How an engine treats the one plan that it has, over a venue. -/
structure Trades (engine : Engine) (plan : ResolvedPlan) (venue : Venue σ) (world : World σ) : Prop where
  /-- From the moment when the strategy arms until it is idle again, the plan is frozen, and nothing else ever is. -/
  frozen : ∀ bars, (engine.after venue world bars).state.frozen =
    if (engine.after venue world bars).state.stage = .idle then none else some plan
  /-- The plan is always resolved. -/
  resolved : ∀ bars bar error, (engine.turnAfter venue world bars bar).result ≠ .error (.resolve error)
  /-- A refusal of the gate is the one that is printed. -/
  refused : ∀ bars bar stage reason, (engine.turnAfter venue world bars bar).result = .ok (.refused stage reason) →
    plan.gate engine.strategy.maxRisk = .error reason ∧
      engine.strategy.riskLines plan =
        [engine.strategy.figuresLine plan.assess, "    warning: " ++ reason.message]
  /-- With a submission there is no printed refusal. The plan is what the venue gets, and its risk is what is logged. -/
  placed : ∀ bars bar, (engine.turnAfter venue world bars bar).result = .ok (.moved .armed .placed) →
    plan.gate engine.strategy.maxRisk = .ok plan.assess ∧
      engine.strategy.riskLines plan = [engine.strategy.figuresLine plan.assess] ∧
      (∃ orders, (venue.submit engine.options.environment plan (engine.after venue world bars).world).1 = .ok orders) ∧
      ⟨bar.timestamp, .placed, .riskAccepted plan.assess.worst engine.strategy.maxRisk plan.assess.ratio⟩ ∈
        (engine.turnAfter venue world bars bar).state.log

section
variable {blueprint : Blueprint} (fixed : ∀ history, blueprint.plan.resolve history = .ok plan)
include fixed

/-- A frozen plan is a resolution of the blueprint's plan, of which there is only one. -/
theorem frozen_eq {state : EngineState} (holds : state.Holds blueprint) :
    state.frozen = if state.stage = .idle then none else some plan := by
  split
  · next idle => exact holds.idle idle
  · next busy =>
    obtain ⟨held, isHeld, history, resolves⟩ := holds.frozen busy
    rw [fixed history] at resolves
    rw [isHeld, Except.ok.inj resolves]

theorem armed_frozen {state : EngineState} (holds : state.Holds blueprint) (armed : state.stage = .armed)
    {other : ResolvedPlan} (frozen : state.frozen = some other) : other = plan := by
  have same := frozen_eq fixed holds
  rw [frozen, armed] at same
  exact Option.some.inj same

theorem Advances.turnsOn {state : EngineState} {timestamp : Calendar.Instant} {turn : Turn σ}
    (advances : Advances engine blueprint venue state timestamp world turn) (holds : state.Holds blueprint) :
    engine.TurnsOn plan venue world timestamp turn := by
  cases advances with
  | undecided | stayed | armed | gaveUp | waited | managed | exited | startedOver | unsubmitted =>
    exact ⟨by simp, by simp, by simp⟩
  | unresolved error idle fires failed =>
    rw [fixed] at failed
    contradiction
  | unqueried error after placed asked | uncancelled error after managing fires asked =>
    obtain ⟨inner, rfl⟩ := ownOrders_error asked
    exact ⟨by simp, by simp, by simp⟩
  | refused other reason armed frozen fires gated =>
    obtain rfl := armed_frozen fixed holds armed frozen
    refine ⟨by simp, fun stage given same => ?_, by simp⟩
    obtain ⟨_, rfl⟩ := BarOutcome.refused.inj (Except.ok.inj same)
    exact gated
  | placed other assessment orders after armed frozen fires gated submitted =>
    obtain rfl := armed_frozen fixed holds armed frozen
    obtain ⟨rfl, _⟩ := ResolvedPlan.gate_eq_ok.mp gated
    refine ⟨by simp, by simp, fun _ => ⟨gated, ⟨orders, by rw [submitted]⟩, ?_⟩⟩
    simp [EngineState.commit_eq, Blueprint.placing]

theorem processBar_turnsOn (follows : engine.strategy.Follows blueprint) {state : EngineState}
    (holds : state.Holds blueprint) (bar : Bar) :
    engine.TurnsOn plan venue world bar.timestamp (engine.processBar venue state bar world) := by
  generalize turned : engine.processBar venue state bar world = turn
  cases turned ▸ processBar_processes follows holds bar with
  | rejected error why =>
    refine ⟨fun inner same => ?_, by simp, by simp⟩
    have isRejection := rejection?_isRejection why
    rw [Except.error.inj same] at isRejection
    contradiction
  | skipped => exact ⟨by simp, by simp, by simp⟩
  | looked turn accepted opens advances =>
    have turnsOn := advances.turnsOn fixed (observed_holds holds bar)
    obtain ⟨log, same⟩ := logError_eq bar.timestamp turn
    have sameResult : (logError bar.timestamp turn).result = turn.result := by rw [same]
    refine ⟨fun error => sameResult ▸ turnsOn.resolved error, sameResult ▸ turnsOn.refused, fun moved => ?_⟩
    rw [sameResult] at moved
    have unlogged : logError bar.timestamp turn = turn := by rw [logError, moved]
    rw [unlogged]
    exact turnsOn.placed moved

/-- An engine whose plan is the same over every history trades this plan in all its runs. -/
theorem trades (follows : engine.strategy.Follows blueprint) (venue : Venue σ) (world : World σ) :
    engine.Trades plan venue world := by
  have turnsOn (bars : List Bar) (bar : Bar) : engine.TurnsOn plan venue (engine.after venue world bars).world
      bar.timestamp (engine.turnAfter venue world bars bar) :=
    processBar_turnsOn fixed follows (after_holds follows venue world bars) bar
  exact {
    frozen := fun bars => frozen_eq fixed (after_holds follows venue world bars)
    resolved := fun bars bar => (turnsOn bars bar).resolved
    refused := by
      intro bars bar stage reason refused
      have gated := (turnsOn bars bar).refused stage reason refused
      exact ⟨gated, Strategy.riskLines_refused gated⟩
    placed := by
      intro bars bar moved
      obtain ⟨gated, submitted, logged⟩ := (turnsOn bars bar).placed moved
      exact ⟨gated, Strategy.riskLines_passed gated, submitted, logged⟩ }

end

end Engine

/-- What is printed of the order plans of a compiled strategy is what its runs trade. A plan has a form without a history
if and only if all its prices are fixed. Then every history resolves it to this form, whose risk is what is printed. If
it is the plan that the trigger submits, every run over every venue freezes and submits nothing else, and the verdict of
the gate and the logged risk are the printed ones. -/
theorem preview_is_traded {registry : Registry} {json : Json} {strategy : Strategy}
    (compiled : Strategy.ofDocument registry json = .ok strategy) :
    (∀ plan ∈ strategy.orderPlans, plan.literal?.isSome = plan.isLiteral ∧
      ∀ resolved, plan.literal? = some resolved →
        strategy.printedRisk plan = strategy.riskLines resolved ∧
          ∀ history, plan.resolve history = .ok resolved) ∧
    ∀ plan resolved, strategy.orderPlans.head? = some plan → plan.literal? = some resolved →
      ∀ options engine, Engine.ofStrategy strategy registry options = .ok engine →
        ∀ (σ : Type) (venue : Venue σ) (world : World σ), engine.Trades resolved venue world := by
  constructor
  · intro plan member
    refine ⟨plan.literal?_isSome, fun resolved isLiteral => ⟨Strategy.printedRisk_literal isLiteral, ?_⟩⟩
    exact Strategy.ofDocument_fixed compiled member isLiteral
  · intro plan resolved first isLiteral options engine bound σ venue world
    obtain ⟨blueprint, follows, isFirst, _⟩ := Strategy.ofDocument_first compiled
    obtain rfl : plan = blueprint.plan := Option.some.inj (first.symm.trans isFirst)
    obtain ⟨sameStrategy, _⟩ := Engine.ofStrategy_keeps bound
    refine Engine.trades (Strategy.ofDocument_fixed compiled (List.mem_of_mem_head? isFirst) isLiteral) ?_ venue world
    rw [sameStrategy]
    exact follows

/-! ### A breakout at fixed prices -/

/-- A breakout strategy that buys in the zone from 100 to 101 with a stop at 95, and so risks sixty. -/
def fixedDocument (limit : Int) : Json :=
  .object [
    ("meta", .object [("name", .string "breakout"), ("symbol", .string "ACME"), ("timeframe", .string "1m")]),
    ("rules", .object [
      ("arm", .string "close > open"), ("trigger", .string "close > entry"),
      ("invalidate", .object [("when_any", .array [.string "close < stop"])])]),
    ("orderPlans", .array [.object [
      ("id", .string "primary"), ("side", .string "buy"), ("qty", .int 10),
      ("entryZone", .array [.int 100, .int 101]), ("stopPrice", .int 95),
      ("targets", .array [.object [("price", .int 125), ("ratioOfPosition", .int 1)]])]]),
    ("risk", .object [("maxRiskPerTrade", .int limit)])]

namespace Engine

/-- The turn of the second rising bar. -/
def secondTurn (engine : Engine) : Turn PaperBook :=
  engine.turnAfter PaperScript.plain.venue ⟨0, .empty⟩ (risingBars.take 1)
    ⟨"ACME", ⟨120, 0⟩, 101, 103, 100, 102, 1000⟩

/-- The prices of the first plan are fixed, and the second rising bar has an outcome. -/
def reaches (engine : Engine) (outcome : BarOutcome) : Bool :=
  engine.strategy.orderPlans.head?.any OrderPlan.isLiteral &&
    engine.secondTurn.result.toOption.any fun reached => decide (reached = outcome)

theorem passes_reaches {json : Json} {outcome : BarOutcome}
    (passed : Engine.passes .empty json liveOptions (fun engine => engine.reaches outcome) = true) :
    ∃ strategy engine plan resolved, Strategy.ofDocument .empty json = .ok strategy ∧
      Engine.ofStrategy strategy .empty liveOptions = .ok engine ∧ engine.strategy = strategy ∧
      strategy.orderPlans.head? = some plan ∧ plan.literal? = some resolved ∧
      engine.secondTurn.result = .ok outcome := by
  obtain ⟨strategy, engine, compiled, bound, reached⟩ := Engine.passes_binds passed
  obtain ⟨first, outcomes⟩ := Bool.and_eq_true_iff.mp reached
  obtain ⟨plan, isFirst, fixed⟩ := (Option.any_eq_true _ _).mp first
  obtain ⟨reached, turned, same⟩ := ok_of_any outcomes
  rw [← plan.literal?_isSome] at fixed
  obtain ⟨resolved, isLiteral⟩ := Option.isSome_iff_exists.mp fixed
  obtain ⟨sameStrategy, _⟩ := ofStrategy_keeps bound
  rw [of_decide_eq_true same] at turned
  exact ⟨strategy, engine, plan, resolved, compiled, bound, sameStrategy, sameStrategy ▸ isFirst, isLiteral, turned⟩

end Engine

set_option maxRecDepth 100000 in
/-- With a limit of a hundred the second bar submits, and nothing is printed but the risk. With a limit of fifty it is
refused, and the refusal is printed. -/
theorem fixed_preview_is_traded :
    (∃ strategy engine plan resolved, Strategy.ofDocument .empty (fixedDocument 100) = .ok strategy ∧
      Engine.ofStrategy strategy .empty liveOptions = .ok engine ∧ strategy.orderPlans.head? = some plan ∧
      plan.literal? = some resolved ∧ engine.secondTurn.result = .ok (.moved .armed .placed) ∧
      resolved.gate strategy.maxRisk = .ok resolved.assess ∧
      strategy.printedRisk plan = [strategy.figuresLine resolved.assess]) ∧
    ∃ strategy engine plan resolved, Strategy.ofDocument .empty (fixedDocument 50) = .ok strategy ∧
      Engine.ofStrategy strategy .empty liveOptions = .ok engine ∧ strategy.orderPlans.head? = some plan ∧
      plan.literal? = some resolved ∧ engine.secondTurn.result = .ok (.refused .armed (.aboveLimit 60 50)) ∧
      strategy.printedRisk plan =
        [strategy.figuresLine resolved.assess, "    warning: " ++ (RiskRefusal.aboveLimit 60 50).message] := by
  have places : Engine.passes .empty (fixedDocument 100) liveOptions
      (fun engine => engine.reaches (.moved .armed .placed)) = true := by decide +kernel
  have refuses : Engine.passes .empty (fixedDocument 50) liveOptions
      (fun engine => engine.reaches (.refused .armed (.aboveLimit 60 50))) = true := by decide +kernel
  constructor
  · obtain ⟨strategy, engine, plan, resolved, compiled, bound, rfl, first, isLiteral, turned⟩ :=
      Engine.passes_reaches places
    obtain ⟨previews, trades⟩ := preview_is_traded compiled
    have printed := ((previews plan (List.mem_of_mem_head? first)).2 resolved isLiteral).1
    obtain ⟨gated, lines, _⟩ := (trades plan resolved first isLiteral liveOptions engine bound PaperBook
      PaperScript.plain.venue ⟨0, .empty⟩).placed _ _ turned
    exact ⟨_, engine, plan, resolved, compiled, bound, first, isLiteral, turned, gated, printed.trans lines⟩
  · obtain ⟨strategy, engine, plan, resolved, compiled, bound, rfl, first, isLiteral, turned⟩ :=
      Engine.passes_reaches refuses
    obtain ⟨previews, trades⟩ := preview_is_traded compiled
    have printed := ((previews plan (List.mem_of_mem_head? first)).2 resolved isLiteral).1
    obtain ⟨_, lines⟩ := (trades plan resolved first isLiteral liveOptions engine bound PaperBook
      PaperScript.plain.venue ⟨0, .empty⟩).refused _ _ _ _ turned
    exact ⟨_, engine, plan, resolved, compiled, bound, first, isLiteral, turned, printed.trans lines⟩

end TradingStrategy

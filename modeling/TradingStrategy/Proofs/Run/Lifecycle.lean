import TradingStrategy.Proofs.Run.Lookups
import TradingStrategy.Proofs.Run.Stays
import TradingStrategy.Venue.Paper

/-!
The cycle of a strategy.

Owns:
- `Engine.ShowsLive`: one of the orders of a submission is live;
- `Engine.Cycles`: the moves of a round, when a placed strategy begins to manage, and that an exited one starts over;
- `compiled_strategy_cycles`: every round of every run of a compiled strategy keeps to this cycle.
-/

namespace TradingStrategy

namespace Engine

variable {σ : Type} {engine : Engine} {blueprint : Blueprint} {venue : Venue σ} {state : EngineState}

/-- One of the orders of a submission is live. A live engine asks the venue for the orders of the plan's symbol and
looks for the ids of the submission. In a dry run the orders are what they were made up as. -/
def ShowsLive (engine : Engine) (venue : Venue σ) (plan : ResolvedPlan) (submitted : List Order) (world : World σ) :
    Prop :=
  if engine.options.environment.dryRun then ∃ order ∈ submitted, order.isLive = true
  else ∃ shown, (venue.queryOpen engine.options.environment plan.symbol world).1 = .ok shown ∧
    ∃ order ∈ shown, order.isLive = true ∧ order.id ∈ submitted.map Order.id

theorem ownOrders_live {plan : ResolvedPlan} (frozen : state.frozen = some plan) (world : World σ) :
    (∃ orders, (engine.ownOrders venue state world).1 = .ok orders ∧ orders.any Order.isLive = true) ↔
      engine.ShowsLive venue plan state.orders world := by
  have symbol : engine.planSymbol state = plan.symbol := by rw [planSymbol, frozen]
  unfold ownOrders ShowsLive
  cases listed : state.orders with
  | nil => simp
  | cons first rest =>
    rw [← listed, if_neg (by simp [listed])]
    cases engine.options.environment.dryRun with
    | true =>
      simp only [if_true, Except.ok.injEq, exists_eq_left', List.any_eq_true]
    | false =>
      simp only [Bool.false_eq_true, if_false, symbol]
      cases venue.queryOpen engine.options.environment plan.symbol world with
      | mk answer after =>
        cases answer with
        | error error => simp
        | ok shown =>
          simp only [Except.ok.injEq, exists_eq_left', List.any_eq_true, List.mem_filter, List.contains_iff_mem]
          constructor
          · rintro ⟨order, ⟨isShown, own⟩, live⟩
            exact ⟨order, isShown, live, own⟩
          · rintro ⟨order, isShown, live, own⟩
            exact ⟨order, ⟨isShown, own⟩, live⟩

theorem Advances.manages {timestamp : Calendar.Instant} {world : World σ} {turn : Turn σ} {plan : ResolvedPlan}
    (advances : Advances engine blueprint venue state timestamp world turn) (placed : state.stage = .placed)
    (frozen : state.frozen = some plan) :
    (logError timestamp turn).move? = some (.placed, .managing) ↔ engine.ShowsLive venue plan state.orders world := by
  rw [← ownOrders_live frozen]
  cases advances with
  | unqueried error after _ asked =>
    rw [asked]
    simp [logError, Turn.move?]
  | waited orders after _ asked noneLive =>
    constructor
    · intro moved
      contradiction
    · rintro ⟨shown, same, live⟩
      rw [asked] at same
      rw [← Except.ok.inj same, noneLive] at live
      contradiction
  | managed orders after _ asked live => exact ⟨fun _ => ⟨orders, by rw [asked], live⟩, fun _ => rfl⟩
  | undecided condition error rule failed =>
    rw [placed] at rule
    contradiction
  | stayed condition rule isFalse patient =>
    rw [placed] at rule
    contradiction
  | unresolved | armed | refused | unsubmitted | placed | gaveUp | uncancelled | exited | startedOver => simp_all

/-- What a round does in the cycle of a strategy. -/
structure Cycles (engine : Engine) (venue : Venue σ) (rounds : List (Round σ)) (round : Round σ) : Prop where
  /-- The strategy stays in its stage, or it moves along one edge of the table. -/
  edge : ((engine.stateAfter venue (rounds ++ [round])).stage = (engine.stateAfter venue rounds).stage ∧
      (engine.turnIn venue rounds round).move? = none) ∨
    ∃ edge ∈ edges, (engine.turnIn venue rounds round).move? = some edge ∧
      (engine.stateAfter venue rounds).stage = edge.1 ∧
      (engine.stateAfter venue (rounds ++ [round])).stage = edge.2
  /-- A placed strategy has submitted its frozen plan on the round that has placed it. It begins to manage on the rounds
  on which an order of this submission is live, and on no others. -/
  managed : (engine.stateAfter venue rounds).stage = .placed → ∃ front placing count plan submitted,
    Since engine venue (.armed, .placed) submittedStages front placing rounds count ∧
    (engine.stateAfter venue rounds).frozen = some plan ∧
    (venue.submit engine.options.environment plan placing.world).1 = .ok submitted ∧
    ((engine.turnIn venue rounds round).move? = some (.placed, .managing) ↔
      (engine.turnIn venue rounds round).isProcessed = true ∧ engine.ShowsLive venue plan submitted round.world)
  /-- An exited strategy is idle behind its next processed round. -/
  restarted : (engine.stateAfter venue rounds).stage = .exited →
    (engine.turnIn venue rounds round).isProcessed = true → (engine.stateAfter venue (rounds ++ [round])).stage = .idle

theorem turnIn_manages (follows : engine.strategy.Follows blueprint) {rounds : List (Round σ)} {round : Round σ}
    (placed : (engine.stateAfter venue rounds).stage = .placed) {plan : ResolvedPlan}
    (frozen : (engine.stateAfter venue rounds).frozen = some plan) :
    (engine.turnIn venue rounds round).move? = some (.placed, .managing) ↔
      (engine.turnIn venue rounds round).isProcessed = true ∧
        engine.ShowsLive venue plan (engine.stateAfter venue rounds).orders round.world := by
  have manages (processed : (engine.turnIn venue rounds round).isProcessed = true) :
      (engine.turnIn venue rounds round).move? = some (.placed, .managing) ↔
        engine.ShowsLive venue plan (engine.stateAfter venue rounds).orders round.world := by
    obtain ⟨turn, advances, same⟩ := turnIn_advances follows venue rounds round processed
    rw [same]
    exact advances.manages placed frozen
  constructor
  · intro moved
    have processed := Turn.isProcessed_of_move? moved
    exact ⟨processed, (manages processed).mp moved⟩
  · rintro ⟨processed, live⟩
    exact (manages processed).mpr live

theorem cycles (follows : engine.strategy.Follows blueprint) (venue : Venue σ) (rounds : List (Round σ))
    (round : Round σ) : engine.Cycles venue rounds round where
  edge := by
    rw [stateAfter_snoc]
    exact turnIn_edge follows venue rounds round
  managed placed := by
    have inside : (engine.stateAfter venue rounds).stage ∈ submittedStages := by
      rw [placed]
      decide
    obtain ⟨front, placing, count, plan, since, frozen, answered⟩ := orders_since follows inside
    exact ⟨front, placing, count, plan, _, since, frozen, answered, turnIn_manages follows placed frozen⟩
  restarted exited processed := by
    rw [stateAfter_snoc]
    cases turnIn_proceeds follows venue rounds round with
    | reset entries moved resting left silent => rw [left]
    | kept entries _ unmoved busy left silent => exact absurd exited busy
    | unseen | armed | placed | managed | exited => simp_all

end Engine

/-- Over every venue and all rounds, a compiled strategy moves along the six edges of its table only, one for a round.
It manages a position only once an order of its own last submission is live, and once exited it starts over. -/
theorem compiled_strategy_cycles {registry : Registry} {json : Json} {strategy : Strategy} {options : EngineOptions}
    {engine : Engine} (compiled : Strategy.ofDocument registry json = .ok strategy)
    (bound : Engine.ofStrategy strategy registry options = .ok engine) :
    (strategy.transitions.map fun transition => (transition.source, transition.target)) = Engine.edges ∧
      ∀ (σ : Type) (venue : Venue σ) (rounds : List (Round σ)) (round : Round σ), engine.Cycles venue rounds round := by
  obtain ⟨blueprint, follows, _, _⟩ := Strategy.ofDocument_follows compiled
  obtain ⟨sameStrategy, _⟩ := Engine.ofStrategy_keeps bound
  refine ⟨by rw [follows.transitions]; rfl, fun σ venue rounds round => ?_⟩
  exact Engine.cycles (sameStrategy.symm ▸ follows) venue rounds round

/-- Three rising bars, one that falls below the stop, and one more. -/
def turningBars : List Bar :=
  risingBars.take 3 ++ [⟨"ACME", ⟨240, 0⟩, 103, 104, 90, 91, 1000⟩, ⟨"ACME", ⟨300, 0⟩, 91, 92, 90, 91, 1000⟩]

set_option maxRecDepth 100000 in
/-- The breakout strategy runs through its whole cycle, one stage on every bar. -/
theorem breakout_cycles :
    ∃ strategy engine, Strategy.ofDocument .empty breakoutDocument = .ok strategy ∧
      Engine.ofStrategy strategy .empty liveOptions = .ok engine ∧
      (∀ rounds round, engine.Cycles PaperScript.plain.venue rounds round) ∧
      [0, 1, 2, 3, 4, 5].map (fun count =>
        (engine.after PaperScript.plain.venue ⟨0, .empty⟩ (turningBars.take count)).state.stage) =
          [.idle, .armed, .placed, .managing, .exited, .idle] := by
  have passed : Engine.passes .empty breakoutDocument liveOptions (fun engine => decide <|
      [0, 1, 2, 3, 4, 5].map (fun count =>
        (engine.after PaperScript.plain.venue ⟨0, .empty⟩ (turningBars.take count)).state.stage) =
          [.idle, .armed, .placed, .managing, .exited, .idle]) = true := by decide +kernel
  obtain ⟨strategy, engine, compiled, bound, stages⟩ := Engine.passes_binds passed
  obtain ⟨_, cycles⟩ := compiled_strategy_cycles compiled bound
  exact ⟨strategy, engine, compiled, bound, cycles _ _, of_decide_eq_true stages⟩

end TradingStrategy

import TradingStrategy.Proofs.Run.Lifecycle
import TradingStrategy.Proofs.Venue.Exchanges

/-!
Cancellations of an engine.

Owns:
- `Engine.exchangesIn`: what a round exchanges with its venue;
- `Engine.cycleAfter`: what the rounds since the strategy last was idle have exchanged;
- `Engine.Exchanges`: the five kinds of exchanges of a bar;
- `Engine.CancelsOwn`: whose orders a round cancels, and on which occasion;
- `engine_cancels_own_orders`: every live round of a compiled strategy keeps to it.

The orders of a state are those that were accepted in its cycle. That carries the ids of an exit back to placements of
the same engine, whatever the venue shows.
-/

namespace TradingStrategy

namespace Engine

variable {σ : Type} {engine : Engine} {blueprint : Blueprint} {venue : Venue σ}

/-! ### Exchanges of rounds -/

/-- The turn of one more round over a venue that traces its exchanges. -/
def tracedTurn (engine : Engine) (venue : Venue σ) (rounds : List (Round σ)) (round : Round σ) : Turn (Traced σ) :=
  engine.processBar venue.traced (engine.stateAfter venue rounds) round.bar round.world.traced

/-- What a round exchanges with its venue. -/
def exchangesIn (engine : Engine) (venue : Venue σ) (rounds : List (Round σ)) (round : Round σ) : List Exchange :=
  (engine.tracedTurn venue rounds round).world.trace

/-- One more round of a cycle, which ends where the strategy is idle. -/
def cycleStep (engine : Engine) (venue : Venue σ) (kept : EngineState × List Exchange) (round : Round σ) :
    EngineState × List Exchange :=
  let turn := engine.processBar venue.traced kept.1 round.bar round.world.traced
  (turn.state, if turn.state.stage = .idle then [] else kept.2 ++ turn.world.trace)

/-- The exchanges since the strategy last was idle. -/
def cycleAfter (engine : Engine) (venue : Venue σ) (rounds : List (Round σ)) : List Exchange :=
  (rounds.foldl (engine.cycleStep venue) (engine.startState, [])).2

/-- Tracing changes nothing. -/
theorem tracedTurn_matches (engine : Engine) (venue : Venue σ) (rounds : List (Round σ)) (round : Round σ) :
    Turn.Matches (fun traced plain => traced.untraced = plain) (engine.tracedTurn venue rounds round)
      (engine.turnIn venue rounds round) :=
  processBar_similar (Venue.traced_similar venue engine.options.environment) _ round.bar rfl

theorem cycle_state (rounds : List (Round σ)) :
    (rounds.foldl (engine.cycleStep venue) (engine.startState, [])).1 = engine.stateAfter venue rounds := by
  induction rounds using List.reverseRecOn with
  | nil => rfl
  | append_singleton rounds round inductionHypothesis =>
    rw [List.foldl_append, stateAfter_snoc, ← (tracedTurn_matches engine venue rounds round).state, tracedTurn,
      ← inductionHypothesis]
    rfl

theorem cycleAfter_snoc (rounds : List (Round σ)) (round : Round σ) :
    engine.cycleAfter venue (rounds ++ [round]) =
      if (engine.turnIn venue rounds round).state.stage = .idle then []
      else engine.cycleAfter venue rounds ++ engine.exchangesIn venue rounds round := by
  rw [cycleAfter, List.foldl_append, ← (tracedTurn_matches engine venue rounds round).state, exchangesIn, tracedTurn,
    ← cycle_state]
  rfl

/-! ### What a bar exchanges -/

/-- The engine's own orders among those that a venue shows. -/
def ownAmong (own shown : List Order) : List Order :=
  shown.filter fun order => (own.map Order.id).contains order.id

/-- The exchanges of a bar, next to what it finds and leaves: none, a submission or its roll-back, a query, or a query
and the cancellation of entries. -/
inductive Exchanges (state : EngineState) (turn : Turn (Traced σ)) : List Exchange → Prop where
  | silent (kept : turn.state.orders ⊆ state.orders) : Exchanges state turn []
  | placed (orders : List Order) (left : turn.state.orders = orders) : Exchanges state turn (orders.map .accepted)
  | rolledBack (accepted : List Order) (cause : VenueError) (cancelled failed : List String)
      (armed : state.stage = .armed) (result : turn.result = .error (.venue (.rolledBack cause cancelled failed)))
      (kept : turn.state.orders = state.orders) :
      Exchanges state turn (accepted.map .accepted ++ accepted.reverse.map fun order => .cancelling order.id)
  | asked (symbol : String) (shown : List Order) (kept : turn.state.orders = state.orders) :
      Exchanges state turn [.shown symbol shown]
  | exited (plan : ResolvedPlan) (shown : List Order) (frozen : state.frozen = some plan)
      (moved : turn.result = .ok (.moved .managing .exited)) (kept : turn.state.orders = state.orders) :
      Exchanges state turn (.shown plan.symbol shown ::
        (Venue.openEntries plan.symbol (ownAmong state.orders shown)).map fun order => .cancelling order.id)

variable (live : engine.options.environment.dryRun = false)
include live

/-- The engine asks for its own orders if it has some, and takes from the answer what is its own. -/
theorem trace_ownOrders {state : EngineState} {world after : World (Traced σ)}
    {answer : Except EngineError (List Order)}
    (asked : engine.ownOrders venue.traced state world = (answer, after)) :
    (after.trace = world.trace ∧ ∀ orders, answer = .ok orders → orders = []) ∨
      ∃ shown, after.trace = world.trace ++ [.shown (engine.planSymbol state) shown] ∧
        answer = .ok (ownAmong state.orders shown) := by
  have traced := Venue.trace_queryOpen venue world live (engine.planSymbol state)
  unfold ownOrders at asked
  split at asked
  · obtain ⟨rfl, rfl⟩ := Prod.mk.inj asked
    exact .inl ⟨rfl, fun orders same => (Except.ok.inj same).symm⟩
  · rw [live, if_neg Bool.false_ne_true] at asked
    split at asked
    · next shown between answered =>
      obtain ⟨rfl, rfl⟩ := Prod.mk.inj asked
      rw [answered] at traced
      exact .inr ⟨shown, traced, rfl⟩
    · next error between answered =>
      obtain ⟨rfl, rfl⟩ := Prod.mk.inj asked
      rw [answered] at traced
      exact .inl ⟨traced.trans (List.append_nil _), fun orders same => by contradiction⟩

theorem Advances.exchanges {state : EngineState} (holds : state.Holds blueprint) {timestamp : Calendar.Instant}
    {world : World (Traced σ)} {turn : Turn (Traced σ)}
    (advances : Advances engine blueprint venue.traced state timestamp world turn) :
    ∃ exchanges, turn.world.trace = world.trace ++ exchanges ∧ Exchanges state turn exchanges := by
  have quiet {turn : Turn (Traced σ)} (sameTrace : turn.world.trace = world.trace)
      (kept : turn.state.orders ⊆ state.orders) :
      ∃ exchanges, turn.world.trace = world.trace ++ exchanges ∧ Exchanges state turn exchanges :=
    ⟨[], by rw [List.append_nil, sameTrace], .silent kept⟩
  have asking {answer : Except EngineError (List Order)} {turn : Turn (Traced σ)}
      (asked : engine.ownOrders venue.traced state world = (answer, turn.world))
      (kept : turn.state.orders = state.orders) :
      ∃ exchanges, turn.world.trace = world.trace ++ exchanges ∧ Exchanges state turn exchanges := by
    rcases trace_ownOrders live asked with ⟨sameTrace, _⟩ | ⟨shown, appended, _⟩
    · exact quiet sameTrace (kept ▸ List.Subset.refl _)
    · exact ⟨_, appended, .asked _ shown kept⟩
  cases advances with
  | undecided | stayed | unresolved | refused => exact quiet rfl (List.Subset.refl _)
  | armed plan idle fires resolved =>
    refine quiet rfl ?_
    simp [EngineState.commit_eq, Blueprint.arming, EngineState.enter]
  | gaveUp | startedOver =>
    refine quiet rfl ?_
    simp [EngineState.commit_eq, Blueprint.giveUp, Blueprint.startOver, EngineState.enter]
  | unqueried error after placed asked => exact asking asked rfl
  | waited orders after placed asked noneLive => exact asking asked rfl
  | managed orders after placed asked isLive =>
    refine asking asked ?_
    simp [EngineState.commit_eq, Blueprint.manage, EngineState.enter]
  | uncancelled error after managing fires asked => exact asking asked rfl
  | exited orders between after report managing fires asked cancelled =>
    obtain ⟨plan, frozen, _⟩ := holds.frozen (by simp [managing])
    have symbol : engine.planSymbol state = plan.symbol := by simp only [planSymbol, frozen]
    have cancelling := Venue.trace_cancelEntries venue between live (engine.planSymbol state) orders
    rw [cancelled] at cancelling
    have kept : (state.commit blueprint.exiting engine.strategy.execution.entryTimeoutBars
        ⟨none, none, [], [.entriesCancelled report, .action "Invalidated, exiting"]⟩ timestamp).orders =
          state.orders := by
      simp [EngineState.commit_eq, Blueprint.exiting, EngineState.enter]
    rcases trace_ownOrders live asked with ⟨sameTrace, none⟩ | ⟨shown, appended, own⟩
    · rw [none orders rfl] at cancelling
      exact quiet (cancelling.trans (by simp [Venue.openEntries, sameTrace])) (kept ▸ List.Subset.refl _)
    · rw [Except.ok.inj own, appended, List.append_assoc, symbol] at cancelling
      exact ⟨_, cancelling, .exited plan shown frozen rfl kept⟩
  | unsubmitted plan assessment error after armed frozen fires gated submitted =>
    obtain ⟨added, appended, submission⟩ := Venue.trace_submit venue world live plan
    rw [submitted] at appended submission
    cases submission with
    | failed => exact quiet (appended.trans (List.append_nil _)) (List.Subset.refl _)
    | rolledBack accepted cause cancelled failed =>
      exact ⟨_, appended, .rolledBack accepted cause cancelled failed armed rfl rfl⟩
  | placed plan assessment orders after armed frozen fires gated submitted =>
    obtain ⟨added, appended, submission⟩ := Venue.trace_submit venue world live plan
    rw [submitted] at appended submission
    cases submission with
    | whole =>
      refine ⟨_, appended, .placed orders ?_⟩
      simp [EngineState.commit_eq, Blueprint.placing, EngineState.enter, holds.unsubmitted (.inr armed)]

theorem processBar_exchanges (follows : engine.strategy.Follows blueprint) {state : EngineState}
    (holds : state.Holds blueprint) (bar : Bar) (world : World (Traced σ)) :
    ∃ exchanges, (engine.processBar venue.traced state bar world).world.trace = world.trace ++ exchanges ∧
      Exchanges state (engine.processBar venue.traced state bar world) exchanges := by
  generalize turned : engine.processBar venue.traced state bar world = turn
  cases turned ▸ processBar_processes follows holds bar with
  | rejected | skipped => exact ⟨[], (List.append_nil _).symm, .silent (List.Subset.refl _)⟩
  | looked turn accepted opens advances =>
    obtain ⟨log, same⟩ := logError_eq bar.timestamp turn
    obtain ⟨sameStage, sameFrozen, sameOrders⟩ := observed_stage engine state bar
    obtain ⟨exchanges, appended, exchanged⟩ := advances.exchanges live (observed_holds holds bar)
    rw [same]
    refine ⟨exchanges, appended, ?_⟩
    cases exchanged with
    | silent kept => exact .silent (sameOrders ▸ kept)
    | placed orders left => exact .placed orders left
    | rolledBack placed cause cancelled failed armed result kept =>
      exact .rolledBack placed cause cancelled failed (sameStage ▸ armed) result (kept.trans sameOrders)
    | asked symbol shown kept => exact .asked symbol shown (kept.trans sameOrders)
    | exited plan shown frozen moved kept =>
      rw [sameOrders]
      exact .exited plan shown (sameFrozen ▸ frozen) moved (kept.trans sameOrders)

theorem exchangesIn_exchanges (follows : engine.strategy.Follows blueprint) (venue : Venue σ)
    (rounds : List (Round σ)) (round : Round σ) :
    Exchanges (engine.stateAfter venue rounds) (engine.tracedTurn venue rounds round)
      (engine.exchangesIn venue rounds round) := by
  obtain ⟨exchanges, appended, exchanged⟩ : ∃ exchanges, (engine.tracedTurn venue rounds round).world.trace =
      round.world.traced.trace ++ exchanges ∧ Exchanges (engine.stateAfter venue rounds)
        (engine.tracedTurn venue rounds round) exchanges :=
    processBar_exchanges live follows (stateAfter_holds follows venue rounds) round.bar round.world.traced
  have same : engine.exchangesIn venue rounds round = exchanges := appended
  rw [same]
  exact exchanged

omit live in
/-- A bar leaves no orders but those that it finds and those that are accepted on it. -/
theorem Exchanges.orders {state : EngineState} {turn : Turn (Traced σ)} {exchanges : List Exchange}
    (exchanged : Exchanges state turn exchanges) :
    ∀ order ∈ turn.state.orders, order ∈ state.orders ∨ .accepted order ∈ exchanges := by
  intro order member
  cases exchanged with
  | silent kept => exact .inl (kept member)
  | placed orders left => exact .inr (List.mem_map_of_mem (left ▸ member))
  | rolledBack _ _ _ _ _ _ kept | asked _ _ kept | exited _ _ _ _ kept => exact .inl (kept ▸ member)

/-- The orders of a state were accepted in its cycle. -/
theorem cycleAfter_accepted (follows : engine.strategy.Follows blueprint) (venue : Venue σ) (rounds : List (Round σ)) :
    ∀ order ∈ (engine.stateAfter venue rounds).orders, .accepted order ∈ engine.cycleAfter venue rounds := by
  induction rounds using List.reverseRecOn with
  | nil => exact fun _ member => absurd member List.not_mem_nil
  | append_singleton rounds round inductionHypothesis =>
    have holds := stateAfter_holds follows venue (rounds ++ [round])
    have exchanged := exchangesIn_exchanges live follows venue rounds round
    intro order member
    rw [stateAfter_snoc] at holds member
    rw [cycleAfter_snoc]
    by_cases idle : (engine.turnIn venue rounds round).state.stage = .idle
    · rw [holds.unsubmitted (.inl idle)] at member
      exact absurd member List.not_mem_nil
    · rw [if_neg idle, List.mem_append]
      rw [← (tracedTurn_matches engine venue rounds round).state] at member
      exact (exchanged.orders order member).imp_left (inductionHypothesis order)

/-! ### Cancellations -/

omit live in
/-- The round rolls a submission back: what it cancels are the orders that it was given. -/
def RollsBack (engine : Engine) (venue : Venue σ) (rounds : List (Round σ)) (round : Round σ) : Prop :=
  ∃ (accepted : List Order) (cause : VenueError) (cancelled failed : List String),
    (engine.stateAfter venue rounds).stage = .armed ∧
    (engine.turnIn venue rounds round).result = .error (.venue (.rolledBack cause cancelled failed)) ∧
    engine.exchangesIn venue rounds round =
      accepted.map .accepted ++ accepted.reverse.map fun order => .cancelling order.id

/-- The round exits: what it cancels are the open entries for the symbol of the frozen plan among the engine's own
orders, as the venue has just shown them. -/
def Exits (engine : Engine) (venue : Venue σ) (rounds : List (Round σ)) (round : Round σ) : Prop :=
  ∃ plan shown, (engine.stateAfter venue rounds).frozen = some plan ∧
    (engine.turnIn venue rounds round).move? = some (.managing, .exited) ∧
    engine.exchangesIn venue rounds round = .shown plan.symbol shown ::
      (Venue.openEntries plan.symbol (ownAmong (engine.stateAfter venue rounds).orders shown)).map
        fun order => .cancelling order.id

/-- The cancellations of a round. -/
structure CancelsOwn (engine : Engine) (venue : Venue σ) (rounds : List (Round σ)) (round : Round σ) : Prop where
  /-- What a round exchanges is read off a trace, which changes nothing. -/
  traced : Turn.Matches (fun traced plain => traced.untraced = plain) (engine.tracedTurn venue rounds round)
    (engine.turnIn venue rounds round)
  /-- An order that is cancelled was accepted before, since the strategy last was idle. -/
  own : ∀ earlier id later, engine.exchangesIn venue rounds round = earlier ++ .cancelling id :: later →
    ∃ order, .accepted order ∈ engine.cycleAfter venue rounds ++ earlier ∧ order.id = id
  occasion : ∀ id, .cancelling id ∈ engine.exchangesIn venue rounds round →
    engine.RollsBack venue rounds round ∨ engine.Exits venue rounds round

omit live in
/-- In a roll-back every placement stands in front of every cancellation. -/
theorem rollBack_own {accepted : List Order} {earlier later : List Exchange} {id : String}
    (split : (accepted.map .accepted ++ accepted.reverse.map fun order => .cancelling order.id) =
      earlier ++ .cancelling id :: later) :
    ∃ order, Exchange.accepted order ∈ earlier ∧ order.id = id := by
  have cancelled : Exchange.cancelling id ∈
      accepted.map Exchange.accepted ++ accepted.reverse.map fun order => .cancelling order.id := by
    rw [split]
    simp
  obtain ⟨order, member, same⟩ : ∃ order ∈ accepted, order.id = id := by simpa using cancelled
  refine ⟨order, ?_, same⟩
  rcases List.append_eq_append_iff.mp split with ⟨middle, behind, _⟩ | ⟨middle, front, behind⟩
  · rw [behind]
    exact List.mem_append_left middle (List.mem_map_of_mem member)
  · cases middle with
    | nil =>
      rw [List.append_nil] at front
      rw [← front]
      exact List.mem_map_of_mem member
    | cons first rest =>
      have asked : Exchange.cancelling id = first := (List.cons.inj behind).1
      have placed : first ∈ accepted.map Exchange.accepted := by simp [front]
      rw [← asked] at placed
      simp at placed

theorem cancelsOwn (follows : engine.strategy.Follows blueprint) (venue : Venue σ) (rounds : List (Round σ))
    (round : Round σ) : engine.CancelsOwn venue rounds round := by
  have traced := tracedTurn_matches engine venue rounds round
  have accepted := cycleAfter_accepted live follows venue rounds
  have exchanged := exchangesIn_exchanges live follows venue rounds round
  refine ⟨traced, ?_, ?_⟩
  · intro earlier id later split
    have cancelled : .cancelling id ∈ engine.exchangesIn venue rounds round := by simp [split]
    generalize engine.exchangesIn venue rounds round = exchanges at exchanged cancelled split
    cases exchanged with
    | silent | placed | asked => simp at cancelled
    | rolledBack orders =>
      obtain ⟨order, member, same⟩ := rollBack_own split
      exact ⟨order, List.mem_append_right _ member, same⟩
    | exited plan shown =>
      obtain ⟨order, entry, rfl⟩ : ∃ order ∈ Venue.openEntries plan.symbol
          (ownAmong (engine.stateAfter venue rounds).orders shown), order.id = id := by simpa using cancelled
      have own := (List.mem_filter.mp (List.mem_filter.mp entry).1).2
      obtain ⟨placed, member, same⟩ := List.mem_map.mp (List.contains_iff_mem.mp own)
      exact ⟨placed, List.mem_append_left earlier (accepted placed member), same⟩
  · intro id cancelled
    generalize same : engine.exchangesIn venue rounds round = exchanges at exchanged cancelled
    cases exchanged with
    | silent | placed | asked => simp at cancelled
    | rolledBack orders cause withdrawn failed armed result =>
      exact .inl ⟨orders, cause, withdrawn, failed, armed, traced.result ▸ result, same⟩
    | exited plan shown frozen moved =>
      refine .inr ⟨plan, shown, frozen, ?_, same⟩
      rw [Turn.move?, ← traced.result, moved]

end Engine

/-- A live engine cancels its own orders only. Over every venue and all rounds, each order that a compiled strategy
cancels was accepted since it last was idle; and it cancels none but to roll a submission back, or to exit, and then
only the open entries for the symbol of its frozen plan. -/
theorem engine_cancels_own_orders {registry : Registry} {json : Json} {strategy : Strategy} {options : EngineOptions}
    {engine : Engine} (compiled : Strategy.ofDocument registry json = .ok strategy)
    (bound : Engine.ofStrategy strategy registry options = .ok engine) (live : options.environment.dryRun = false) :
    ∀ (σ : Type) (venue : Venue σ) (rounds : List (Round σ)) (round : Round σ),
      engine.CancelsOwn venue rounds round := by
  obtain ⟨blueprint, follows, _, _⟩ := Strategy.ofDocument_follows compiled
  obtain ⟨sameStrategy, sameOptions⟩ := Engine.ofStrategy_keeps bound
  intro σ venue rounds round
  exact Engine.cancelsOwn (sameOptions.symm ▸ live) (sameStrategy.symm ▸ follows) venue rounds round

/-! ### Whose orders are cancelled -/

/-- What is cancelled on the turning bars, bar by bar, live at a paper venue. -/
def Engine.cancelledOn (engine : Engine) (script : PaperScript) : List (List String) :=
  let rounds : List (Round PaperBook) := turningBars.zipIdx.map fun (bar, index) =>
    ⟨bar, (engine.after script.venue ⟨0, .empty⟩ (turningBars.take index)).world⟩
  rounds.zipIdx.map fun (round, index) =>
    (engine.exchangesIn script.venue (rounds.take index) round).filterMap Exchange.cancelled?

set_option maxRecDepth 100000 in
/-- The breakout strategy cancels its entry when it exits. If the first target is rejected, the two legs in front of it
are cancelled at once, and the entry of the next submission when the strategy exits. -/
theorem breakouts_cancel_own_orders :
    ∃ strategy engine, Strategy.ofDocument .empty breakoutDocument = .ok strategy ∧
      Engine.ofStrategy strategy .empty liveOptions = .ok engine ∧
      (∀ (script : PaperScript) rounds round, engine.CancelsOwn script.venue rounds round) ∧
      engine.cancelledOn .plain = [[], [], [], ["paper-1"], []] ∧
      engine.cancelledOn { PaperScript.plain with rejectedPlacements := [3] } =
        [[], ["paper-2", "paper-1"], [], [], ["paper-3"]] := by
  have passed : Engine.passes .empty breakoutDocument liveOptions (fun engine => decide (
      engine.cancelledOn .plain = [[], [], [], ["paper-1"], []] ∧
      engine.cancelledOn { PaperScript.plain with rejectedPlacements := [3] } =
        [[], ["paper-2", "paper-1"], [], [], ["paper-3"]])) = true := by decide +kernel
  obtain ⟨strategy, engine, compiled, bound, cancelled⟩ := Engine.passes_binds passed
  obtain ⟨exit, rollBack⟩ := of_decide_eq_true cancelled
  have cancelsOwn := engine_cancels_own_orders compiled bound rfl
  exact ⟨strategy, engine, compiled, bound, fun script => cancelsOwn _ script.venue, exit, rollBack⟩

end TradingStrategy

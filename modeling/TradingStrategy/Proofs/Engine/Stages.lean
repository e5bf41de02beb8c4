import TradingStrategy.Engine.Step
import TradingStrategy.Proofs.Order.Resolution

/-!
What a step of an engine can do.

Owns:
- what recording, counting down, observing and committing leave of a state;
- `Engine.Advances`: the fourteen ends of a step, each with what the rules, the plan and the venue have answered, for an
  engine whose strategy follows a blueprint;
- `Engine.Processes`: the three ends of a bar.

Every invariant of a run is a case analysis over these ends. A new kind of step belongs here first.
-/

namespace TradingStrategy

namespace EngineState

/-! ### What operations leave of a state -/

/-- Recorded events stand behind the log in their order, all of the present stage. -/
theorem foldl_record (state : EngineState) (timestamp : Calendar.Instant) (events : List LogEvent) :
    events.foldl (fun state event => state.record timestamp event) state =
      { state with log := state.log ++ events.map fun event => ⟨timestamp, state.stage, event⟩ } := by
  induction events generalizing state with
  | nil => simp
  | cons first rest inductionHypothesis =>
    rw [List.foldl_cons, inductionHypothesis]
    simp [record]

theorem enter_stage (state : EngineState) (stage : Stage) (timeout : Nat) (staged : Staged) :
    (state.enter stage timeout staged).stage = stage := by
  cases stage <;> rfl

/-- A committed transition enters its target, adds its orders, and writes its events there. -/
theorem commit_eq (state : EngineState) (transition : Transition) (timeout : Nat) (staged : Staged)
    (timestamp : Calendar.Instant) :
    state.commit transition timeout staged timestamp =
      let entered := state.enter transition.target timeout staged
      { entered with
        orders := entered.orders ++ staged.orders
        log := entered.log ++ (LogEvent.transition transition.source transition.target :: staged.events).map
          fun event => ⟨timestamp, transition.target, event⟩ } := by
  simp only [commit, foldl_record, enter_stage]

/-- The timers and the log are all that a tick changes. -/
theorem tick_eq (state : EngineState) (timestamp : Calendar.Instant) :
    ∃ armTimer entryTimer log,
      state.tick timestamp = { state with armTimer := armTimer, entryTimer := entryTimer, log := log } := by
  unfold tick
  split
  · exact ⟨_, _, _, rfl⟩
  · split
    · exact ⟨_, _, _, rfl⟩
    · exact ⟨_, _, _, rfl⟩
  · exact ⟨_, _, _, rfl⟩

end EngineState

namespace Blueprint

/-- A plan that is the resolution of the blueprint's plan over some history. -/
def Resolves (blueprint : Blueprint) (plan : ResolvedPlan) : Prop :=
  ∃ history, blueprint.plan.resolve history = .ok plan

/-- The rule of a stage: the expression that decides whether it is left. -/
def rule? (blueprint : Blueprint) : Stage → Option Expr
  | .idle => some blueprint.arm
  | .armed => some blueprint.trigger
  | .managing => some blueprint.invalidate
  | .placed | .exited => none

end Blueprint

/-- What holds of the state of an engine at all times: an idle strategy has neither a plan nor orders, an armed one has
no orders yet, a strategy that is not idle has a resolution of its blueprint's plan, and the runtime variables are those
of the plan. -/
structure EngineState.Holds (blueprint : Blueprint) (state : EngineState) : Prop where
  capacity : 0 < state.history.capacity
  bound : state.bindings = plannedBindings state.frozen
  idle : state.stage = .idle → state.frozen = none
  unsubmitted : state.stage = .idle ∨ state.stage = .armed → state.orders = []
  frozen : state.stage ≠ .idle → ∃ plan, state.frozen = some plan ∧ blueprint.Resolves plan

/-- Without a plan there are no variables, so guards see those of the state in any case. -/
theorem EngineState.Holds.context_eq {blueprint : Blueprint} {state : EngineState} (holds : state.Holds blueprint) :
    state.context = ⟨state.history, state.bindings⟩ := by
  rw [context, holds.bound]
  cases state.frozen with
  | none => rfl
  | some plan => rfl

namespace Strategy.Follows

variable {strategy : Strategy} {blueprint : Blueprint} (follows : strategy.Follows blueprint)
include follows

/-! ### The transitions of each stage -/

theorem transitionsFrom_idle : strategy.transitionsFrom .idle = [blueprint.arming] := by
  rw [transitionsFrom, follows.transitions]
  rfl

theorem transitionsFrom_armed : strategy.transitionsFrom .armed =
    [blueprint.placing strategy.execution.entryTimeoutBars, Blueprint.giveUp] := by
  rw [transitionsFrom, follows.transitions]
  rfl

theorem transitionsFrom_placed : strategy.transitionsFrom .placed = [Blueprint.manage] := by
  rw [transitionsFrom, follows.transitions]
  rfl

theorem transitionsFrom_managing : strategy.transitionsFrom .managing = [blueprint.exiting] := by
  rw [transitionsFrom, follows.transitions]
  rfl

theorem transitionsFrom_exited : strategy.transitionsFrom .exited = [Blueprint.startOver] := by
  rw [transitionsFrom, follows.transitions]
  rfl

theorem armedPlan? : Engine.armedPlan? strategy = some blueprint.plan.id := by
  rw [Engine.armedPlan?, follows.transitionsFrom_armed]
  rfl

end Strategy.Follows

namespace Engine

variable {σ : Type}

theorem ofStrategy_keeps {strategy : Strategy} {registry : Registry} {options : EngineOptions} {engine : Engine}
    (bound : ofStrategy strategy registry options = .ok engine) :
    engine.strategy = strategy ∧ engine.options = options := by
  unfold ofStrategy at bound
  split at bound
  · rw [← Except.ok.inj bound]
    exact ⟨rfl, rfl⟩
  · contradiction

/-- The ends of a step: what is said, and the state and the world that are left. -/
inductive Advances (engine : Engine) (blueprint : Blueprint) (venue : Venue σ) (state : EngineState)
    (timestamp : Calendar.Instant) (world : World σ) : Turn σ → Prop where
  /-- The rule of the stage has no truth value. -/
  | undecided (condition : Expr) (error : EvalError) (rule : blueprint.rule? state.stage = some condition)
      (failed : evaluateBool state.context condition = .error error) :
      Advances engine blueprint venue state timestamp world ⟨.error (.guard error), state, world⟩
  | stayed (condition : Expr) (rule : blueprint.rule? state.stage = some condition)
      (isFalse : evaluateBool state.context condition = .ok false)
      (patient : state.stage = .armed → state.armTimer ≠ some 0) :
      Advances engine blueprint venue state timestamp world ⟨.ok (.stayed state.stage), state, world⟩
  | unresolved (error : ResolveError) (idle : state.stage = .idle)
      (fires : evaluateBool state.context blueprint.arm = .ok true)
      (failed : blueprint.plan.resolve state.history = .error error) :
      Advances engine blueprint venue state timestamp world ⟨.error (.resolve error), state, world⟩
  | armed (plan : ResolvedPlan) (idle : state.stage = .idle)
      (fires : evaluateBool state.context blueprint.arm = .ok true)
      (resolved : blueprint.plan.resolve state.history = .ok plan) :
      Advances engine blueprint venue state timestamp world
        ⟨.ok (.moved .idle .armed), state.commit blueprint.arming engine.strategy.execution.entryTimeoutBars
          ⟨some plan, none, [], [.action "Arming strategy"]⟩ timestamp, world⟩
  | refused (plan : ResolvedPlan) (reason : RiskRefusal) (armed : state.stage = .armed)
      (frozen : state.frozen = some plan) (fires : evaluateBool state.context blueprint.trigger = .ok true)
      (gated : plan.gate engine.strategy.maxRisk = .error reason) :
      Advances engine blueprint venue state timestamp world
        ⟨.ok (.refused .armed reason), state.record timestamp (.refused reason), world⟩
  | unsubmitted (plan : ResolvedPlan) (assessment : RiskAssessment) (error : VenueError) (after : World σ)
      (armed : state.stage = .armed) (frozen : state.frozen = some plan)
      (fires : evaluateBool state.context blueprint.trigger = .ok true)
      (gated : plan.gate engine.strategy.maxRisk = .ok assessment)
      (submitted : venue.submit engine.options.environment plan world = (.error error, after)) :
      Advances engine blueprint venue state timestamp world ⟨.error (.venue error), state, after⟩
  | placed (plan : ResolvedPlan) (assessment : RiskAssessment) (orders : List Order) (after : World σ)
      (armed : state.stage = .armed) (frozen : state.frozen = some plan)
      (fires : evaluateBool state.context blueprint.trigger = .ok true)
      (gated : plan.gate engine.strategy.maxRisk = .ok assessment)
      (submitted : venue.submit engine.options.environment plan world = (.ok orders, after)) :
      Advances engine blueprint venue state timestamp world
        ⟨.ok (.moved .armed .placed),
          state.commit (blueprint.placing engine.strategy.execution.entryTimeoutBars)
            engine.strategy.execution.entryTimeoutBars
            ⟨none, some engine.strategy.execution.entryTimeoutBars, orders,
              [.riskAccepted assessment.worst engine.strategy.maxRisk assessment.ratio,
                .submitted (orders.map Order.id), .action "Trigger fired, order plan submitted"]⟩ timestamp, after⟩
  | gaveUp (armed : state.stage = .armed) (isFalse : evaluateBool state.context blueprint.trigger = .ok false)
      (late : state.armTimer = some 0) :
      Advances engine blueprint venue state timestamp world
        ⟨.ok (.moved .armed .idle), state.commit Blueprint.giveUp engine.strategy.execution.entryTimeoutBars
          ⟨none, none, [], [.action "Arm timeout, reset"]⟩ timestamp, world⟩
  | unqueried (error : EngineError) (after : World σ) (placed : state.stage = .placed)
      (asked : engine.ownOrders venue state world = (.error error, after)) :
      Advances engine blueprint venue state timestamp world ⟨.error error, state, after⟩
  | waited (orders : List Order) (after : World σ) (placed : state.stage = .placed)
      (asked : engine.ownOrders venue state world = (.ok orders, after)) (noneLive : orders.any Order.isLive = false) :
      Advances engine blueprint venue state timestamp world ⟨.ok (.stayed .placed), state, after⟩
  | managed (orders : List Order) (after : World σ) (placed : state.stage = .placed)
      (asked : engine.ownOrders venue state world = (.ok orders, after)) (live : orders.any Order.isLive = true) :
      Advances engine blueprint venue state timestamp world
        ⟨.ok (.moved .placed .managing), state.commit Blueprint.manage engine.strategy.execution.entryTimeoutBars
          ⟨none, none, [], [.action "Order live, managing position"]⟩ timestamp, after⟩
  | uncancelled (error : EngineError) (after : World σ) (managing : state.stage = .managing)
      (fires : evaluateBool state.context blueprint.invalidate = .ok true)
      (asked : engine.ownOrders venue state world = (.error error, after)) :
      Advances engine blueprint venue state timestamp world ⟨.error error, state, after⟩
  | exited (orders : List Order) (between after : World σ) (report : CancelReport)
      (managing : state.stage = .managing) (fires : evaluateBool state.context blueprint.invalidate = .ok true)
      (asked : engine.ownOrders venue state world = (.ok orders, between))
      (cancelled : venue.cancelEntries engine.options.environment (engine.planSymbol state) orders between =
        (report, after)) :
      Advances engine blueprint venue state timestamp world
        ⟨.ok (.moved .managing .exited), state.commit blueprint.exiting engine.strategy.execution.entryTimeoutBars
          ⟨none, none, [], [.entriesCancelled report, .action "Invalidated, exiting"]⟩ timestamp, after⟩
  | startedOver (exited : state.stage = .exited) :
      Advances engine blueprint venue state timestamp world
        ⟨.ok (.moved .exited .idle), state.commit Blueprint.startOver engine.strategy.execution.entryTimeoutBars
          ⟨none, none, [], [.action "Re-arming for next trade setup"]⟩ timestamp, world⟩

variable {engine : Engine} {blueprint : Blueprint} {venue : Venue σ} {state : EngineState} {world : World σ}

/-! ### Guards -/

theorem select_undecided {transition : Transition} {rest : List Transition} {condition : Expr} {error : EvalError}
    (guarded : transition.guard = .expression condition)
    (failed : evaluateBool state.context condition = .error error) :
    engine.select venue state (transition :: rest) world = (.error (.guard error), world) := by
  simp only [select, guardHolds, guarded, failed]

theorem select_fires {transition : Transition} {rest : List Transition} {condition : Expr}
    (guarded : transition.guard = .expression condition) (fires : evaluateBool state.context condition = .ok true) :
    engine.select venue state (transition :: rest) world = (.ok (some transition), world) := by
  simp only [select, guardHolds, guarded, fires]

theorem select_passes {transition : Transition} {rest : List Transition} {condition : Expr}
    (guarded : transition.guard = .expression condition) (isFalse : evaluateBool state.context condition = .ok false) :
    engine.select venue state (transition :: rest) world = engine.select venue state rest world := by
  simp only [select, guardHolds, guarded, isFalse]

theorem ownOrders_error {error : EngineError} {after : World σ}
    (asked : engine.ownOrders venue state world = (.error error, after)) : ∃ inner, error = .venue inner := by
  unfold ownOrders at asked
  split at asked
  · simp at asked
  · split at asked
    · simp at asked
    · split at asked
      · simp at asked
      · next inner _ _ => exact ⟨inner, (Except.error.inj (Prod.mk.inj asked).1).symm⟩

/-! ### The ends of a step, stage by stage -/

section
variable (follows : engine.strategy.Follows blueprint) (timestamp : Calendar.Instant)
include follows

private theorem advance_idle (idle : state.stage = .idle) :
    Advances engine blueprint venue state timestamp world (engine.advance venue state timestamp world) := by
  have rule : blueprint.rule? state.stage = some blueprint.arm := by rw [idle]; rfl
  unfold advance
  rw [idle, follows.transitionsFrom_idle]
  match evaluated : evaluateBool state.context blueprint.arm with
  | .error error =>
    rw [select_undecided rfl evaluated]
    exact .undecided blueprint.arm error rule evaluated
  | .ok false =>
    rw [select_passes rfl evaluated]
    have stayed : Advances engine blueprint venue state timestamp world ⟨.ok (.stayed state.stage), state, world⟩ :=
      .stayed blueprint.arm rule evaluated (by simp [idle])
    rw [idle] at stayed
    exact stayed
  | .ok true =>
    rw [select_fires rfl evaluated]
    match resolved : blueprint.plan.resolve state.history with
    | .error error =>
      simp only [take, Blueprint.arming, prepare, if_true, follows.armedPlan?, resolvePlan,
        follows.orderPlan?, resolved]
      exact .unresolved error idle evaluated resolved
    | .ok plan =>
      simp only [take, Blueprint.arming, prepare, if_true, follows.armedPlan?, resolvePlan,
        follows.orderPlan?, resolved, performAll, perform, Staged.note, List.nil_append, idle]
      exact .armed plan idle evaluated resolved

private theorem advance_armed (armed : state.stage = .armed) (holds : state.Holds blueprint) :
    Advances engine blueprint venue state timestamp world (engine.advance venue state timestamp world) := by
  have rule : blueprint.rule? state.stage = some blueprint.trigger := by rw [armed]; rfl
  unfold advance
  rw [armed, follows.transitionsFrom_armed]
  match evaluated : evaluateBool state.context blueprint.trigger with
  | .error error =>
    rw [select_undecided rfl evaluated]
    exact .undecided blueprint.trigger error rule evaluated
  | .ok false =>
    rw [select_passes rfl evaluated]
    by_cases late : state.armTimer = some 0
    · simp only [select, guardHolds, Blueprint.giveUp, late, beq_self_eq_true, take, prepare, reduceCtorEq, if_false,
        performAll, perform, Staged.note, List.nil_append, armed]
      exact .gaveUp armed evaluated late
    · have notYet : (state.armTimer == some 0) = false := by simpa using late
      have stayed : Advances engine blueprint venue state timestamp world ⟨.ok (.stayed state.stage), state, world⟩ :=
        .stayed blueprint.trigger rule evaluated fun _ => late
      simp only [select, guardHolds, Blueprint.giveUp, notYet]
      rw [armed] at stayed
      exact stayed
  | .ok true =>
    rw [select_fires rfl evaluated]
    obtain ⟨plan, frozen, history, resolved⟩ := holds.frozen (by simp [armed])
    have submits : engine.planToSubmit state ⟨none, none, [], []⟩ blueprint.plan.id = .ok plan := by
      simp only [planToSubmit, frozen, Option.or, (OrderPlan.resolve_keeps resolved).1, if_true]
    match gated : plan.gate engine.strategy.maxRisk with
    | .error reason =>
      simp only [take, Blueprint.placing, prepare, reduceCtorEq, if_false, performAll, perform, submits, submitPlan,
        gated, armed]
      exact .refused plan reason armed frozen evaluated gated
    | .ok assessment =>
      match submitted : venue.submit engine.options.environment plan world with
      | (.error error, after) =>
        simp only [take, Blueprint.placing, prepare, reduceCtorEq, if_false, performAll, perform, submits, submitPlan,
          gated, submitted]
        exact .unsubmitted plan assessment error after armed frozen evaluated gated submitted
      | (.ok orders, after) =>
        simp only [take, Blueprint.placing, prepare, reduceCtorEq, if_false, performAll, perform, submits, submitPlan,
          gated, submitted, Staged.note, List.nil_append, List.cons_append, armed]
        exact .placed plan assessment orders after armed frozen evaluated gated submitted

private theorem advance_placed (placed : state.stage = .placed) :
    Advances engine blueprint venue state timestamp world (engine.advance venue state timestamp world) := by
  unfold advance
  rw [placed, follows.transitionsFrom_placed]
  match asked : engine.ownOrders venue state world with
  | (.error error, after) =>
    simp only [select, guardHolds, Blueprint.manage, asked]
    exact .unqueried error after placed asked
  | (.ok orders, after) =>
    match live : orders.any Order.isLive with
    | false =>
      simp only [select, guardHolds, Blueprint.manage, asked, live]
      exact .waited orders after placed asked live
    | true =>
      simp only [select, guardHolds, Blueprint.manage, asked, live, take, prepare, reduceCtorEq, if_false, performAll,
        perform, Staged.note, List.nil_append, placed]
      exact .managed orders after placed asked live

private theorem advance_managing (managing : state.stage = .managing) :
    Advances engine blueprint venue state timestamp world (engine.advance venue state timestamp world) := by
  have rule : blueprint.rule? state.stage = some blueprint.invalidate := by rw [managing]; rfl
  unfold advance
  rw [managing, follows.transitionsFrom_managing]
  match evaluated : evaluateBool state.context blueprint.invalidate with
  | .error error =>
    rw [select_undecided rfl evaluated]
    exact .undecided blueprint.invalidate error rule evaluated
  | .ok false =>
    rw [select_passes rfl evaluated]
    have stayed : Advances engine blueprint venue state timestamp world ⟨.ok (.stayed state.stage), state, world⟩ :=
      .stayed blueprint.invalidate rule evaluated (by simp [managing])
    rw [managing] at stayed
    exact stayed
  | .ok true =>
    rw [select_fires rfl evaluated]
    match asked : engine.ownOrders venue state world with
    | (.error error, after) =>
      simp only [take, Blueprint.exiting, prepare, reduceCtorEq, if_false, performAll, perform, asked]
      exact .uncancelled error after managing evaluated asked
    | (.ok orders, between) =>
      match cancelled : venue.cancelEntries engine.options.environment (engine.planSymbol state) orders between with
      | (report, after) =>
        simp only [take, Blueprint.exiting, prepare, reduceCtorEq, if_false, performAll, perform, asked, cancelled,
          Staged.note, List.nil_append, List.cons_append, managing]
        exact .exited orders between after report managing evaluated asked cancelled

private theorem advance_exited (exited : state.stage = .exited) :
    Advances engine blueprint venue state timestamp world (engine.advance venue state timestamp world) := by
  unfold advance
  rw [exited, follows.transitionsFrom_exited]
  simp only [select, guardHolds, Blueprint.startOver, take, prepare, reduceCtorEq, if_false, performAll, perform,
    Staged.note, List.nil_append, exited]
  exact .startedOver exited

theorem advance_advances (holds : state.Holds blueprint) :
    Advances engine blueprint venue state timestamp world (engine.advance venue state timestamp world) := by
  cases stage : state.stage with
  | idle => exact advance_idle follows timestamp stage
  | armed => exact advance_armed follows timestamp stage holds
  | placed => exact advance_placed follows timestamp stage
  | managing => exact advance_managing follows timestamp stage
  | exited => exact advance_exited follows timestamp stage

end

/-! ### Bars -/

/-- The state in which a bar is looked at. -/
def observed (engine : Engine) (state : EngineState) (bar : Bar) : EngineState :=
  engine.observe { state with lastTimestamp := some bar.timestamp } bar

/-- The ends of a bar: it is rejected, it lies outside regular hours, or there is a step. -/
inductive Processes (engine : Engine) (blueprint : Blueprint) (venue : Venue σ) (state : EngineState) (bar : Bar)
    (world : World σ) : Turn σ → Prop where
  | rejected (error : EngineError) (why : engine.rejection? state bar = some error) :
      Processes engine blueprint venue state bar world ⟨.error error, state, world⟩
  | skipped (accepted : engine.rejection? state bar = none) (closed : engine.looksAt bar = false) :
      Processes engine blueprint venue state bar world
        ⟨.ok .skipped, { state with lastTimestamp := some bar.timestamp }, world⟩
  | looked (turn : Turn σ) (accepted : engine.rejection? state bar = none) (opens : engine.looksAt bar = true)
      (advances : Advances engine blueprint venue (engine.observed state bar) bar.timestamp world turn) :
      Processes engine blueprint venue state bar world (logError bar.timestamp turn)

/-- A logged error changes nothing but the log. -/
theorem logError_eq (timestamp : Calendar.Instant) (turn : Turn σ) :
    ∃ log, logError timestamp turn = { turn with state := { turn.state with log := log } } := by
  unfold logError
  split
  · exact ⟨turn.state.log, rfl⟩
  · exact ⟨_, rfl⟩

/-- Looking at a bar changes the history, the counts and the log. -/
theorem observed_eq (engine : Engine) (state : EngineState) (bar : Bar) :
    ∃ armTimer entryTimer log, engine.observed state bar =
      { state with
        history := state.history.push (engine.pipeline.compute bar state.history.snapshots)
        armTimer := armTimer
        entryTimer := entryTimer
        lastTimestamp := some bar.timestamp
        barsProcessed := state.barsProcessed + 1
        log := log } := by
  unfold observed observe
  obtain ⟨armTimer, entryTimer, log, same⟩ := EngineState.tick_eq
    { state with
      lastTimestamp := some bar.timestamp
      history := state.history.push (engine.pipeline.compute bar state.history.snapshots)
      barsProcessed := state.barsProcessed + 1 } bar.timestamp
  exact ⟨armTimer, entryTimer, log, same⟩

theorem observed_holds (holds : state.Holds blueprint) (bar : Bar) : (engine.observed state bar).Holds blueprint := by
  obtain ⟨armTimer, entryTimer, log, same⟩ := observed_eq engine state bar
  rw [same]
  exact ⟨holds.capacity, holds.bound, holds.idle, holds.unsubmitted, holds.frozen⟩

theorem processBar_processes (follows : engine.strategy.Follows blueprint) (holds : state.Holds blueprint) (bar : Bar) :
    Processes engine blueprint venue state bar world (engine.processBar venue state bar world) := by
  unfold processBar
  split
  · next error why => exact .rejected error why
  · next accepted =>
    by_cases looks : engine.looksAt bar = true
    · simp only [looks, if_true]
      exact .looked _ accepted looks (advance_advances follows bar.timestamp (observed_holds holds bar))
    · simp only [looks, Bool.false_eq_true, if_false]
      exact .skipped accepted (by simpa using looks)

/-! ### What holds at all times -/

theorem startState_holds (follows : engine.strategy.Follows blueprint) : engine.startState.Holds blueprint where
  capacity := by simp only [startState, EngineState.start, History.empty]; omega
  bound := rfl
  idle _ := rfl
  unsubmitted _ := rfl
  frozen := by simp [startState, EngineState.start, follows.start]

theorem Advances.holds {timestamp : Calendar.Instant} {turn : Turn σ}
    (advances : Advances engine blueprint venue state timestamp world turn) (holds : state.Holds blueprint) :
    turn.state.Holds blueprint := by
  cases advances with
  | undecided | stayed | unresolved | unsubmitted | unqueried | waited | uncancelled => exact holds
  | refused => exact ⟨holds.capacity, holds.bound, holds.idle, holds.unsubmitted, holds.frozen⟩
  | armed plan idle fires resolved =>
    simp only [EngineState.commit_eq, Blueprint.arming, EngineState.enter]
    refine ⟨holds.capacity, rfl, by simp, ?_, fun _ => ⟨plan, rfl, state.history, resolved⟩⟩
    simp [holds.unsubmitted (.inl idle)]
  | placed plan assessment orders after armed frozen fires gated submitted =>
    simp only [EngineState.commit_eq, Blueprint.placing, EngineState.enter]
    exact ⟨holds.capacity, holds.bound, by simp, by simp, fun _ => holds.frozen (by simp [armed])⟩
  | gaveUp | startedOver =>
    simp only [EngineState.commit_eq, Blueprint.giveUp, Blueprint.startOver, EngineState.enter]
    exact ⟨holds.capacity, rfl, by simp, by simp, by simp⟩
  | managed orders after placed asked live =>
    simp only [EngineState.commit_eq, Blueprint.manage, EngineState.enter]
    exact ⟨holds.capacity, holds.bound, by simp, by simp, fun _ => holds.frozen (by simp [placed])⟩
  | exited orders between after report managing fires asked cancelled =>
    simp only [EngineState.commit_eq, Blueprint.exiting, EngineState.enter]
    exact ⟨holds.capacity, holds.bound, by simp, by simp, fun _ => holds.frozen (by simp [managing])⟩

theorem processBar_holds (follows : engine.strategy.Follows blueprint) (holds : state.Holds blueprint) (bar : Bar) :
    (engine.processBar venue state bar world).state.Holds blueprint := by
  generalize turned : engine.processBar venue state bar world = turn
  cases turned ▸ processBar_processes follows holds bar with
  | rejected => exact holds
  | skipped => exact ⟨holds.capacity, holds.bound, holds.idle, holds.unsubmitted, holds.frozen⟩
  | looked turn accepted opens advances =>
    have kept := advances.holds (observed_holds holds bar)
    obtain ⟨log, same⟩ := logError_eq bar.timestamp turn
    rw [same]
    exact ⟨kept.capacity, kept.bound, kept.idle, kept.unsubmitted, kept.frozen⟩

/-! ### Moves between stages -/

/-- What a bar does to the stage and the frozen plan: nothing, or one of three kinds of moves. A plan is frozen by the
move that arms, kept by the moves that go on, and dropped by the moves back to idle. -/
inductive Moves (engine : Engine) (blueprint : Blueprint) (before : EngineState) (bar : Bar)
    (result : Except EngineError BarOutcome) (after : EngineState) : Prop where
  | stays (stage : after.stage = before.stage) (frozen : after.frozen = before.frozen)
      (unmoved : ∀ source target, result ≠ .ok (.moved source target))
  | arms (plan : ResolvedPlan) (idle : before.stage = .idle) (stage : after.stage = .armed)
      (resolved : blueprint.plan.resolve (engine.observed before bar).history = .ok plan)
      (frozen : after.frozen = some plan) (moved : result = .ok (.moved .idle .armed))
  | goesOn
      (edge : (before.stage, after.stage) ∈ [(Stage.armed, Stage.placed), (.placed, .managing), (.managing, .exited)])
      (frozen : after.frozen = before.frozen) (moved : result = .ok (.moved before.stage after.stage))
  | resets (edge : before.stage ∈ [Stage.armed, .exited]) (stage : after.stage = .idle) (frozen : after.frozen = none)
      (moved : result = .ok (.moved before.stage .idle))

theorem observed_stage (engine : Engine) (state : EngineState) (bar : Bar) :
    (engine.observed state bar).stage = state.stage ∧ (engine.observed state bar).frozen = state.frozen ∧
      (engine.observed state bar).orders = state.orders := by
  obtain ⟨armTimer, entryTimer, log, same⟩ := observed_eq engine state bar
  rw [same]
  exact ⟨rfl, rfl, rfl⟩

theorem Advances.moves {bar : Bar} {timestamp : Calendar.Instant} {turn : Turn σ}
    (advances : Advances engine blueprint venue (engine.observed state bar) timestamp world turn) :
    Moves engine blueprint state bar turn.result turn.state := by
  obtain ⟨sameStage, sameFrozen, _⟩ := observed_stage engine state bar
  cases advances with
  | undecided | stayed | unresolved | refused | unsubmitted | unqueried | waited | uncancelled =>
    exact .stays sameStage sameFrozen (by simp)
  | armed plan idle fires resolved =>
    simp only [EngineState.commit_eq, Blueprint.arming, EngineState.enter]
    exact .arms plan (sameStage ▸ idle) rfl resolved rfl rfl
  | placed plan assessment orders after armed frozen fires gated submitted =>
    have stage := sameStage ▸ armed
    simp only [EngineState.commit_eq, Blueprint.placing, EngineState.enter]
    exact .goesOn (by simp [stage]) sameFrozen (by simp [stage])
  | managed orders after placed asked live =>
    have stage := sameStage ▸ placed
    simp only [EngineState.commit_eq, Blueprint.manage, EngineState.enter]
    exact .goesOn (by simp [stage]) sameFrozen (by simp [stage])
  | exited orders between after report managing fires asked cancelled =>
    have stage := sameStage ▸ managing
    simp only [EngineState.commit_eq, Blueprint.exiting, EngineState.enter]
    exact .goesOn (by simp [stage]) sameFrozen (by simp [stage])
  | gaveUp armed isFalse late =>
    have stage := sameStage ▸ armed
    simp only [EngineState.commit_eq, Blueprint.giveUp, EngineState.enter]
    exact .resets (by simp [stage]) rfl rfl (by simp [stage])
  | startedOver exited =>
    have stage := sameStage ▸ exited
    simp only [EngineState.commit_eq, Blueprint.startOver, EngineState.enter]
    exact .resets (by simp [stage]) rfl rfl (by simp [stage])

theorem processBar_moves (follows : engine.strategy.Follows blueprint) (holds : state.Holds blueprint) (bar : Bar) :
    Moves engine blueprint state bar (engine.processBar venue state bar world).result
      (engine.processBar venue state bar world).state := by
  generalize turned : engine.processBar venue state bar world = turn
  cases turned ▸ processBar_processes follows holds bar with
  | rejected => exact .stays rfl rfl (by simp)
  | skipped => exact .stays rfl rfl (by simp)
  | looked turn accepted opens advances =>
    obtain ⟨log, same⟩ := logError_eq bar.timestamp turn
    rw [same]
    cases advances.moves with
    | stays stage frozen unmoved => exact .stays stage frozen unmoved
    | arms plan idle stage resolved frozen moved => exact .arms plan idle stage resolved frozen moved
    | goesOn edge frozen moved => exact .goesOn edge frozen moved
    | resets edge stage frozen moved => exact .resets edge stage frozen moved

end Engine

end TradingStrategy

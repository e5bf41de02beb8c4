import TradingStrategy.Proofs.Engine.Stages

/-!
What a bar leaves of a state, for an engine with any transitions.

Owns:
- `Engine.looked`: the state in which a bar is looked at, field by field;
- the errors that turn a bar away, which are never those of a step;
- `Engine.Leaves`: the seven results of a bar, each with the whole state that it leaves;
- `processBar_leaves`: a transition that is not committed leaves nothing behind, wherever its step ends;
- the three ends of a bar as equations, and the time that an accepted bar leaves.

No blueprint is assumed here. The transitions may have any guards and any actions in any order.
-/

namespace TradingStrategy

/-- The errors that turn a bar away before it is looked at. -/
def EngineError.isRejection : EngineError → Bool
  | outOfOrder .. | symbolMismatch .. => true
  | guard _ | resolve _ | venue _ | missingFeature _ | unknownPlan _ => false

namespace EngineState

/-! ### Ticks -/

/-- The arm timer after a tick. It runs while the strategy is armed, and it stops at zero. -/
def nextArmTimer (state : EngineState) : Option Nat :=
  if state.stage = .armed then state.armTimer.map fun left => left - 1 else state.armTimer

/-- The entry timer after a tick. It runs while the strategy is placed, and at its end it is gone. -/
def nextEntryTimer (state : EngineState) : Option Nat :=
  if state.stage = .placed then state.entryTimer.bind fun left => if left ≤ 1 then none else some (left - 1)
  else state.entryTimer

/-- What a tick writes: the end of the entry timer. -/
def tickEntries (state : EngineState) (timestamp : Calendar.Instant) : List LogEntry :=
  if state.stage = .placed ∧ ∃ left ∈ state.entryTimer, left ≤ 1 then [⟨timestamp, state.stage, .entryTimeout⟩]
  else []

theorem tick_eq_next (state : EngineState) (timestamp : Calendar.Instant) :
    state.tick timestamp =
      { state with
        armTimer := state.nextArmTimer
        entryTimer := state.nextEntryTimer
        log := state.log ++ state.tickEntries timestamp } := by
  obtain ⟨stage, history, armTimer, entryTimer, frozen, bindings, orders, lastTimestamp, barsProcessed, log⟩ := state
  cases stage with
  | idle | managing | exited => simp [tick, nextArmTimer, nextEntryTimer, tickEntries]
  | armed => cases armTimer <;> simp [tick, nextArmTimer, nextEntryTimer, tickEntries]
  | placed =>
    cases entryTimer with
    | none => simp [tick, nextArmTimer, nextEntryTimer, tickEntries]
    | some left =>
      by_cases ends : left ≤ 1
      · simp [tick, nextArmTimer, nextEntryTimer, tickEntries, ends, show left - 1 = 0 by omega, record]
      · simp [tick, nextArmTimer, nextEntryTimer, tickEntries, ends, show ¬left - 1 = 0 by omega]

end EngineState

namespace Engine

variable {σ : Type} {engine : Engine} {venue : Venue σ} {state : EngineState} {world after : World σ}

/-- The state in which a bar is looked at: one snapshot more, one bar more, and a tick of the present stage. -/
def looked (engine : Engine) (state : EngineState) (bar : Bar) : EngineState :=
  { state with
    history := state.history.push (engine.pipeline.compute bar state.history.snapshots)
    armTimer := state.nextArmTimer
    entryTimer := state.nextEntryTimer
    lastTimestamp := some bar.timestamp
    barsProcessed := state.barsProcessed + 1
    log := state.log ++ state.tickEntries bar.timestamp }

theorem observed_eq_looked (engine : Engine) (state : EngineState) (bar : Bar) :
    engine.observed state bar = engine.looked state bar := by
  unfold observed observe
  rw [EngineState.tick_eq_next]
  rfl

/-! ### The errors of a step -/

theorem rejection?_isRejection {bar : Bar} {error : EngineError} (why : engine.rejection? state bar = some error) :
    error.isRejection = true := by
  unfold rejection? at why
  split at why
  · rw [← Option.some.inj why]
    rfl
  · split at why
    · split at why
      · contradiction
      · rw [← Option.some.inj why]
        rfl
    · contradiction

theorem ownOrders_inside {error : EngineError} (asked : engine.ownOrders venue state world = (.error error, after)) :
    error.isRejection = false := by
  obtain ⟨cause, rfl⟩ := ownOrders_error asked
  rfl

theorem guardHolds_inside {guard : Guard} {error : EngineError}
    (asked : engine.guardHolds venue state guard world = (.error error, after)) : error.isRejection = false := by
  unfold guardHolds at asked
  split at asked
  · simp at asked
  · simp at asked
  · split at asked
    · simp at asked
    · rw [← Except.error.inj (Prod.mk.inj asked).1]
      rfl
  · split at asked
    · simp at asked
    · next inner _ shown =>
      rw [← Except.error.inj (Prod.mk.inj asked).1]
      exact ownOrders_inside shown

/-- What is selected is one of the transitions, and no error of a guard turns a bar away. -/
theorem select_ends {transitions : List Transition} {answer : Except EngineError (Option Transition)}
    (selected : engine.select venue state transitions world = (answer, after)) :
    (∀ transition, answer = .ok (some transition) → transition ∈ transitions) ∧
      ∀ error, answer = .error error → error.isRejection = false := by
  induction transitions generalizing world with
  | nil =>
    rw [select] at selected
    rw [← (Prod.mk.inj selected).1]
    simp
  | cons first rest inductionHypothesis =>
    rw [select] at selected
    split at selected
    · rw [← (Prod.mk.inj selected).1]
      simp
    · obtain ⟨member, inside⟩ := inductionHypothesis selected
      exact ⟨fun transition chosen => List.mem_cons_of_mem _ (member transition chosen), inside⟩
    · next error _ asked =>
      rw [← (Prod.mk.inj selected).1]
      refine ⟨by simp, fun other same => ?_⟩
      rw [← Except.error.inj same]
      exact guardHolds_inside asked

theorem resolvePlan_inside {planId : String} {error : EngineError}
    (failed : engine.resolvePlan state planId = .error error) : error.isRejection = false := by
  unfold resolvePlan at failed
  split at failed
  · rw [← Except.error.inj failed]
    rfl
  · split at failed
    · contradiction
    · rw [← Except.error.inj failed]
      rfl

theorem prepare_inside {target : Stage} {error : EngineError} (failed : engine.prepare state target = .error error) :
    error.isRejection = false := by
  unfold prepare at failed
  split at failed
  · split at failed
    · contradiction
    · split at failed
      · contradiction
      · next resolved =>
        rw [← Except.error.inj failed]
        exact resolvePlan_inside resolved
  · contradiction

theorem planToSubmit_inside {staged : Staged} {planId : String} {error : EngineError}
    (failed : engine.planToSubmit state staged planId = .error error) : error.isRejection = false := by
  unfold planToSubmit at failed
  split at failed
  · split at failed
    · contradiction
    · exact resolvePlan_inside failed
  · exact resolvePlan_inside failed

theorem perform_inside {staged : Staged} {action : Action} {error : EngineError}
    (failed : engine.perform venue state staged action world = (.failed error, after)) :
    error.isRejection = false := by
  unfold perform at failed
  split at failed
  · simp at failed
  · simp at failed
  · split at failed
    · next inner unresolved =>
      rw [← Attempt.failed.inj (Prod.mk.inj failed).1]
      exact planToSubmit_inside unresolved
    · unfold submitPlan at failed
      split at failed
      · simp at failed
      · split at failed
        · rw [← Attempt.failed.inj (Prod.mk.inj failed).1]
          rfl
        · simp at failed
  · split at failed
    · next inner _ asked =>
      rw [← Attempt.failed.inj (Prod.mk.inj failed).1]
      exact ownOrders_inside asked
    · simp at failed

theorem performAll_inside {staged : Staged} {actions : List Action} {error : EngineError}
    (failed : engine.performAll venue state staged actions world = (.failed error, after)) :
    error.isRejection = false := by
  induction actions generalizing staged world with
  | nil => simp [performAll] at failed
  | cons first rest inductionHypothesis =>
    rw [performAll] at failed
    split at failed
    · exact inductionHypothesis failed
    · simp at failed
    · next inner _ performed =>
      rw [← Attempt.failed.inj (Prod.mk.inj failed).1]
      exact perform_inside performed

/-! ### The results of a bar -/

/-- The results of a bar, each with the state that it leaves. A bar that is turned away leaves the state as it was, and
one outside regular hours leaves its time. A bar that is looked at leaves the state in which it was looked at, with one
log entry more if the step was refused or has failed. Only a committed transition changes more. -/
inductive Leaves (engine : Engine) (venue : Venue σ) (state : EngineState) (bar : Bar) (world : World σ) :
    Turn σ → Prop where
  | mismatched (foreign : bar.symbol ≠ engine.strategy.symbol) :
      Leaves engine venue state bar world
        ⟨.error (.symbolMismatch engine.strategy.symbol bar.symbol), state, world⟩
  | late (previous : Calendar.Instant) (known : state.lastTimestamp = some previous)
      (notAfter : previous.before bar.timestamp = false) :
      Leaves engine venue state bar world ⟨.error (.outOfOrder previous bar.timestamp), state, world⟩
  | skipped (closed : engine.looksAt bar = false) :
      Leaves engine venue state bar world ⟨.ok .skipped, { state with lastTimestamp := some bar.timestamp }, world⟩
  | stayed (after : World σ) :
      Leaves engine venue state bar world ⟨.ok (.stayed state.stage), engine.looked state bar, after⟩
  | refused (reason : RiskRefusal) (after : World σ) :
      Leaves engine venue state bar world
        ⟨.ok (.refused state.stage reason),
          { engine.looked state bar with
            log := (engine.looked state bar).log ++ [⟨bar.timestamp, state.stage, .refused reason⟩] }, after⟩
  | failed (error : EngineError) (inside : error.isRejection = false) (after : World σ) :
      Leaves engine venue state bar world
        ⟨.error error,
          { engine.looked state bar with
            log := (engine.looked state bar).log ++ [⟨bar.timestamp, state.stage, .failed error⟩] }, after⟩
  | moved (transition : Transition) (prepared staged : Staged) (between after : World σ)
      (leaves : transition ∈ engine.strategy.transitionsFrom state.stage)
      (preparation : engine.prepare (engine.looked state bar) transition.target = .ok prepared)
      (performed : engine.performAll venue (engine.looked state bar) prepared transition.actions between =
        (.staged staged, after)) :
      Leaves engine venue state bar world
        ⟨.ok (.moved state.stage transition.target),
          (engine.looked state bar).commit transition engine.strategy.execution.entryTimeoutBars staged bar.timestamp,
          after⟩

theorem rejected_leaves {bar : Bar} {error : EngineError} (why : engine.rejection? state bar = some error) :
    Leaves engine venue state bar world ⟨.error error, state, world⟩ := by
  unfold rejection? at why
  split at why
  · next foreign =>
    rw [← Option.some.inj why]
    exact .mismatched foreign
  · split at why
    · next previous known =>
      split at why
      · contradiction
      · next notAfter =>
        rw [← Option.some.inj why]
        exact .late previous known (by simpa using notAfter)
    · contradiction

theorem take_leaves {bar : Bar} {transition : Transition}
    (leaves : transition ∈ engine.strategy.transitionsFrom state.stage) (between : World σ) :
    Leaves engine venue state bar world
      (logError bar.timestamp (engine.take venue (engine.looked state bar) bar.timestamp transition between)) := by
  unfold take
  match preparation : engine.prepare (engine.looked state bar) transition.target with
  | .error error => exact .failed error (prepare_inside preparation) between
  | .ok prepared =>
    dsimp only
    match performed : engine.performAll venue (engine.looked state bar) prepared transition.actions between with
    | (.staged staged, after) => exact .moved transition prepared staged between after leaves preparation performed
    | (.refused reason, after) => exact .refused reason after
    | (.failed error, after) => exact .failed error (performAll_inside performed) after

theorem advance_leaves (engine : Engine) (venue : Venue σ) (state : EngineState) (bar : Bar) (world : World σ) :
    Leaves engine venue state bar world
      (logError bar.timestamp (engine.advance venue (engine.looked state bar) bar.timestamp world)) := by
  unfold advance
  match selected : engine.select venue (engine.looked state bar)
      (engine.strategy.transitionsFrom (engine.looked state bar).stage) world with
  | (.error error, after) => exact .failed error ((select_ends selected).2 error rfl) after
  | (.ok none, after) => exact .stayed after
  | (.ok (some transition), after) =>
    have member : transition ∈ engine.strategy.transitionsFrom state.stage := (select_ends selected).1 transition rfl
    exact take_leaves member after

theorem leaves_processBar (engine : Engine) (venue : Venue σ) (state : EngineState) (bar : Bar) (world : World σ) :
    Leaves engine venue state bar world (engine.processBar venue state bar world) := by
  unfold processBar
  split
  · next error why => exact rejected_leaves why
  · by_cases looks : engine.looksAt bar = true
    · simp only [looks, if_true]
      have leaves := engine.advance_leaves venue state bar world
      rw [← observed_eq_looked] at leaves
      exact leaves
    · simp only [looks, Bool.false_eq_true, if_false]
      exact .skipped (by simpa using looks)

/-- A bar that has led to no transition leaves the stage, the frozen plan, the runtime variables and the orders as they
were. -/
def KeepsTrade (state : EngineState) (turn : Turn σ) : Prop :=
  (∀ source target, turn.result ≠ .ok (.moved source target)) →
    turn.state.stage = state.stage ∧ turn.state.frozen = state.frozen ∧ turn.state.bindings = state.bindings ∧
      turn.state.orders = state.orders

theorem Leaves.keepsTrade {bar : Bar} {turn : Turn σ} (leaves : Leaves engine venue state bar world turn) :
    KeepsTrade state turn := by
  intro unmoved
  cases leaves with
  | mismatched | late | skipped | stayed | refused | failed => exact ⟨rfl, rfl, rfl, rfl⟩
  | moved transition => exact absurd rfl (unmoved state.stage transition.target)

end Engine

/-- Over every state, all transitions and every venue, a bar is processed as a whole or it changes nothing but what
looking at it changes: neither stage nor plan nor variables nor orders. What an uncommitted transition has prepared is
dropped, wherever its step has ended. -/
theorem processBar_leaves {σ : Type} (engine : Engine) (venue : Venue σ) (state : EngineState) (bar : Bar)
    (world : World σ) :
    engine.Leaves venue state bar world (engine.processBar venue state bar world) ∧
      Engine.KeepsTrade state (engine.processBar venue state bar world) :=
  have leaves := engine.leaves_processBar venue state bar world
  ⟨leaves, leaves.keepsTrade⟩

namespace Engine

variable {σ : Type} {engine : Engine} {venue : Venue σ} {state : EngineState} {world : World σ} {bar : Bar}

theorem processBar_rejected {error : EngineError} (why : engine.rejection? state bar = some error) :
    engine.processBar venue state bar world = ⟨.error error, state, world⟩ := by
  simp only [processBar, why]

theorem processBar_skipped (accepted : engine.rejection? state bar = none) (closed : engine.looksAt bar = false) :
    engine.processBar venue state bar world =
      ⟨.ok .skipped, { state with lastTimestamp := some bar.timestamp }, world⟩ := by
  simp only [processBar, accepted, closed, Bool.false_eq_true, if_false]

theorem processBar_looked (accepted : engine.rejection? state bar = none) (looks : engine.looksAt bar = true) :
    engine.processBar venue state bar world =
      logError bar.timestamp (engine.advance venue (engine.looked state bar) bar.timestamp world) := by
  rw [← observed_eq_looked]
  simp only [processBar, accepted, looks, if_true]
  rfl

/-- A bar that is looked at is not skipped. -/
theorem processBar_seen (looks : engine.looksAt bar = true) :
    (engine.processBar venue state bar world).result ≠ .ok .skipped := by
  match why : engine.rejection? state bar with
  | some error => simp [processBar_rejected why]
  | none =>
    rw [processBar_looked why looks]
    have leaves := advance_leaves engine venue state bar world
    generalize logError bar.timestamp (engine.advance venue (engine.looked state bar) bar.timestamp world) = turn
      at leaves
    cases leaves with
    | skipped closed =>
      rw [looks] at closed
      contradiction
    | mismatched | late | stayed | refused | failed | moved => simp

/-- A bar that is not turned away is the last one from then on. -/
theorem processBar_lastTimestamp (accepted : engine.rejection? state bar = none) :
    (engine.processBar venue state bar world).state.lastTimestamp = some bar.timestamp := by
  cases looks : engine.looksAt bar with
  | false => rw [processBar_skipped accepted looks]
  | true =>
    rw [processBar_looked accepted looks]
    have leaves := advance_leaves engine venue state bar world
    generalize logError bar.timestamp (engine.advance venue (engine.looked state bar) bar.timestamp world) = turn
      at leaves
    cases leaves with
    | mismatched foreign =>
      rw [rejection?, if_pos foreign] at accepted
      contradiction
    | late previous known notAfter =>
      unfold rejection? at accepted
      split at accepted
      · contradiction
      · simp [known, notAfter] at accepted
    | skipped | stayed | refused | failed => rfl
    | moved transition =>
      simp only [EngineState.commit_eq]
      cases transition.target <;> rfl

end Engine

end TradingStrategy

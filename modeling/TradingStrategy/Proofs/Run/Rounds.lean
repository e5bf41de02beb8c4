import Mathlib.Data.List.Induction
import TradingStrategy.Proofs.Engine.Turns
import TradingStrategy.Proofs.Run.Reach

/-!
Runs whose venue may change between the bars.

Owns:
- rounds, and the state after some rounds. A round finds its own world, so that orders may be filled, cancelled or
  forgotten in front of every bar, by anyone;
- `Engine.Since`: the round that has moved a strategy along an edge, and the rounds that it has spent since then;
- `Engine.Proceeds`: what a round does to a state, field by field, for an engine whose strategy follows a blueprint.

A run over bars alone is a case of this: every bar finds the world that the bar before it has left.
-/

namespace TradingStrategy

variable {σ : Type}

/-! ### What a turn tells -/

def timerCount (log : List LogEntry) : Nat :=
  log.countP fun entry => entry.event.kind == .timer

theorem timerCount_append (log entries : List LogEntry) :
    timerCount (log ++ entries) = timerCount log + timerCount entries :=
  List.countP_append

namespace Turn

/-- The bar was neither turned away nor skipped. -/
def isProcessed (turn : Turn σ) : Bool :=
  match turn.result with
  | .ok .skipped => false
  | .ok _ => true
  | .error error => !error.isRejection

/-- The edge along which the bar has moved the strategy. -/
def move? (turn : Turn σ) : Option (Stage × Stage) :=
  match turn.result with
  | .ok (.moved source target) => some (source, target)
  | _ => none

theorem isProcessed_of_move? {turn : Turn σ} {edge : Stage × Stage} (moved : turn.move? = some edge) :
    turn.isProcessed = true := by
  unfold move? at moved
  unfold isProcessed
  split at moved
  · next same => rw [same]
  · contradiction

end Turn

/-! ### Rounds -/

/-- A bar and the world that it finds. -/
structure Round (σ : Type) where
  bar : Bar
  world : World σ

namespace Engine

/-- The turn of a round that finds a state. -/
def turn (engine : Engine) (venue : Venue σ) (state : EngineState) (round : Round σ) : Turn σ :=
  engine.processBar venue state round.bar round.world

/-- The state after some rounds. -/
def stateAfter (engine : Engine) (venue : Venue σ) (rounds : List (Round σ)) : EngineState :=
  rounds.foldl (fun state round => (engine.turn venue state round).state) engine.startState

/-- The turn of one more round. -/
def turnIn (engine : Engine) (venue : Venue σ) (rounds : List (Round σ)) (round : Round σ) : Turn σ :=
  engine.turn venue (engine.stateAfter venue rounds) round

/-- The processed bars for which an armed strategy waits, and after which a placed one writes that it still waits. -/
def patience (engine : Engine) : Nat :=
  engine.strategy.execution.entryTimeoutBars

variable {engine : Engine} {blueprint : Blueprint} {venue : Venue σ}

theorem stateAfter_snoc (rounds : List (Round σ)) (round : Round σ) :
    engine.stateAfter venue (rounds ++ [round]) = (engine.turnIn venue rounds round).state := by
  unfold stateAfter turnIn
  rw [List.foldl_append]
  rfl

theorem stateAfter_holds (follows : engine.strategy.Follows blueprint) (venue : Venue σ) (rounds : List (Round σ)) :
    (engine.stateAfter venue rounds).Holds blueprint := by
  induction rounds using List.reverseRecOn with
  | nil => exact startState_holds follows
  | append_singleton rounds round inductionHypothesis =>
    rw [stateAfter_snoc]
    exact processBar_holds follows inductionHypothesis round.bar

/-- A run over bars passes through the states of rounds. -/
theorem after_rounds (engine : Engine) (venue : Venue σ) (world : World σ) (bars : List Bar) :
    ∃ rounds : List (Round σ), rounds.map Round.bar = bars ∧
      ∀ count, engine.stateAfter venue (rounds.take count) = (engine.after venue world (bars.take count)).state := by
  induction bars using List.reverseRecOn with
  | nil => exact ⟨[], rfl, fun count => by rw [List.take_nil, List.take_nil]; rfl⟩
  | append_singleton bars bar inductionHypothesis =>
    obtain ⟨rounds, sameBars, sameStates⟩ := inductionHypothesis
    have sameLength : rounds.length = bars.length := by rw [← sameBars, List.length_map]
    refine ⟨rounds ++ [⟨bar, (engine.after venue world bars).world⟩], by simp [sameBars], fun count => ?_⟩
    by_cases short : count ≤ bars.length
    · rw [List.take_append_of_le_length (sameLength ▸ short), List.take_append_of_le_length short]
      exact sameStates count
    · have whole : engine.stateAfter venue rounds = (engine.after venue world bars).state := by
        have same := sameStates bars.length
        rw [List.take_of_length_le (by omega), List.take_length] at same
        exact same
      rw [List.take_of_length_le (by simp; omega), List.take_of_length_le (by simp; omega), stateAfter_snoc,
        after_snoc, turnIn, whole]
      rfl

/-! ### Stays -/

/-- A round has moved the strategy along an edge, and behind every round since then it is in one of some stages. The
processed rounds since then are counted. -/
inductive Since (engine : Engine) (venue : Venue σ) (edge : Stage × Stage) (stages : List Stage)
    (front : List (Round σ)) (entering : Round σ) : List (Round σ) → Nat → Prop where
  | moved (edged : (engine.turnIn venue front entering).move? = some edge) :
      Since engine venue edge stages front entering (front ++ [entering]) 0
  | stays {rounds : List (Round σ)} {count : Nat} (round : Round σ)
      (since : Since engine venue edge stages front entering rounds count)
      (stays : (engine.turnIn venue rounds round).state.stage ∈ stages) :
      Since engine venue edge stages front entering (rounds ++ [round])
        (count + (engine.turnIn venue rounds round).isProcessed.toNat)

/-! ### What a round does -/

/-- What a round does to a state: it leaves all but the time, it looks at its bar and goes no further, or it looks at
its bar and moves the strategy along an edge of its blueprint. Only the tick writes about timers. -/
inductive Proceeds (engine : Engine) (blueprint : Blueprint) (venue : Venue σ) (state : EngineState) (round : Round σ)
    (turn : Turn σ) : Prop where
  | unseen (lastTimestamp : Option Calendar.Instant) (unprocessed : turn.isProcessed = false)
      (unmoved : turn.move? = none) (left : turn.state = { state with lastTimestamp := lastTimestamp })
  | kept (entries : List LogEntry) (processed : turn.isProcessed = true)
      (unmoved : turn.move? = none) (busy : state.stage ≠ .exited)
      (left : turn.state = { engine.looked state round.bar with
        log := (engine.looked state round.bar).log ++ entries })
      (silent : timerCount entries = 0)
  | armed (plan : ResolvedPlan) (entries : List LogEntry)
      (moved : turn.move? = some (.idle, .armed)) (idle : state.stage = .idle)
      (resolved : blueprint.plan.resolve (engine.looked state round.bar).history = .ok plan)
      (left : turn.state = { engine.looked state round.bar with
        stage := .armed
        armTimer := some engine.patience
        frozen := some plan
        bindings := plan.bindings
        log := (engine.looked state round.bar).log ++ entries })
      (silent : timerCount entries = 0)
  | placed (plan : ResolvedPlan) (orders : List Order) (entries : List LogEntry)
      (moved : turn.move? = some (.armed, .placed)) (armed : state.stage = .armed) (frozen : state.frozen = some plan)
      (submitted : (venue.submit engine.options.environment plan round.world).1 = .ok orders)
      (left : turn.state = { engine.looked state round.bar with
        stage := .placed
        armTimer := none
        entryTimer := some engine.patience
        orders := orders
        log := (engine.looked state round.bar).log ++ entries })
      (silent : timerCount entries = 0)
  | managed (entries : List LogEntry)
      (moved : turn.move? = some (.placed, .managing)) (placed : state.stage = .placed)
      (left : turn.state = { engine.looked state round.bar with
        stage := .managing
        entryTimer := none
        log := (engine.looked state round.bar).log ++ entries })
      (silent : timerCount entries = 0)
  | exited (entries : List LogEntry)
      (moved : turn.move? = some (.managing, .exited)) (managing : state.stage = .managing)
      (left : turn.state = { engine.looked state round.bar with
        stage := .exited
        log := (engine.looked state round.bar).log ++ entries })
      (silent : timerCount entries = 0)
  | reset (entries : List LogEntry)
      (moved : turn.move? = some (state.stage, .idle)) (resting : state.stage ∈ [Stage.armed, .exited])
      (left : turn.state = { engine.looked state round.bar with
        stage := .idle
        armTimer := none
        entryTimer := none
        frozen := none
        bindings := []
        orders := []
        log := (engine.looked state round.bar).log ++ entries })
      (silent : timerCount entries = 0)

variable {state : EngineState} {round : Round σ}

/-- A step that ends with an error keeps the state in which its bar was looked at, but for the log. -/
theorem Proceeds.failed {error : EngineError} (inside : error.isRejection = false) (busy : state.stage ≠ .exited)
    (after : World σ) : Proceeds engine blueprint venue state round
      (logError round.bar.timestamp ⟨.error error, engine.looked state round.bar, after⟩) := by
  refine .kept [⟨round.bar.timestamp, state.stage, .failed error⟩] ?_ rfl busy rfl rfl
  simp [logError, Turn.isProcessed, inside]

theorem Proceeds.stayed (busy : state.stage ≠ .exited) (stage : Stage) (after : World σ) :
    Proceeds engine blueprint venue state round
      (logError round.bar.timestamp ⟨.ok (.stayed stage), engine.looked state round.bar, after⟩) := by
  refine .kept [] rfl rfl busy ?_ rfl
  rw [List.append_nil]
  rfl

theorem Advances.proceeds {turn : Turn σ} (holds : state.Holds blueprint)
    (advances : Advances engine blueprint venue (engine.looked state round.bar) round.bar.timestamp round.world turn) :
    Proceeds engine blueprint venue state round (logError round.bar.timestamp turn) := by
  have sameStage : (engine.looked state round.bar).stage = state.stage := rfl
  have ruled {condition : Expr} (rule : blueprint.rule? (engine.looked state round.bar).stage = some condition) :
      state.stage ≠ .exited := by
    intro exited
    rw [sameStage, exited] at rule
    contradiction
  -- The log entries of a move are read off its committed state, so they are left open in front of it.
  cases advances with
  | undecided condition error rule failed => exact .failed rfl (ruled rule) round.world
  | stayed condition rule isFalse patient => exact .stayed (ruled rule) state.stage round.world
  | unresolved error idle fires failed =>
    rw [sameStage] at idle
    exact .failed rfl (by simp [idle]) round.world
  | armed plan idle fires resolved =>
    exact .armed plan _ rfl idle resolved (by
      simp only [logError, EngineState.commit_eq, Blueprint.arming, EngineState.enter, List.append_nil]
      rfl) (by rfl)
  | refused plan reason armed frozen fires gated =>
    rw [sameStage] at armed
    exact .kept [⟨round.bar.timestamp, state.stage, .refused reason⟩] rfl rfl (by simp [armed]) rfl rfl
  | unsubmitted plan assessment error after armed frozen fires gated submitted =>
    rw [sameStage] at armed
    exact .failed rfl (by simp [armed]) after
  | placed plan assessment orders after armed frozen fires gated submitted =>
    have none : (engine.looked state round.bar).orders = [] := holds.unsubmitted (.inr armed)
    exact .placed plan orders _ rfl armed frozen (by rw [submitted]) (by
      simp only [logError, EngineState.commit_eq, Blueprint.placing, EngineState.enter, none, List.nil_append]
      rfl) (by rfl)
  | gaveUp armed isFalse late =>
    rw [sameStage] at armed
    exact .reset _ (by rw [armed]; rfl) (by simp [armed]) (by
      simp only [logError, EngineState.commit_eq, Blueprint.giveUp, EngineState.enter, List.append_nil]
      rfl) (by rfl)
  | unqueried error after placed asked =>
    rw [sameStage] at placed
    exact .failed (ownOrders_inside asked) (by simp [placed]) after
  | waited orders after placed asked noneLive =>
    rw [sameStage] at placed
    exact .stayed (by simp [placed]) .placed after
  | managed orders after placed asked live =>
    exact .managed _ rfl placed (by
      simp only [logError, EngineState.commit_eq, Blueprint.manage, EngineState.enter, List.append_nil]
      rfl) (by rfl)
  | uncancelled error after managing fires asked =>
    rw [sameStage] at managing
    exact .failed (ownOrders_inside asked) (by simp [managing]) after
  | exited orders between after report managing fires asked cancelled =>
    exact .exited _ rfl managing (by
      simp only [logError, EngineState.commit_eq, Blueprint.exiting, EngineState.enter, List.append_nil]
      rfl) (by rfl)
  | startedOver exited =>
    rw [sameStage] at exited
    exact .reset _ (by rw [exited]; rfl) (by simp [exited]) (by
      simp only [logError, EngineState.commit_eq, Blueprint.startOver, EngineState.enter, List.append_nil]
      rfl) (by rfl)

/-- A processed round takes a step from the state in which its bar was looked at. -/
theorem turnIn_advances (follows : engine.strategy.Follows blueprint) (venue : Venue σ) (rounds : List (Round σ))
    (round : Round σ) (processed : (engine.turnIn venue rounds round).isProcessed = true) :
    ∃ turn, Advances engine blueprint venue (engine.looked (engine.stateAfter venue rounds) round.bar)
        round.bar.timestamp round.world turn ∧
      engine.turnIn venue rounds round = logError round.bar.timestamp turn := by
  have holds := stateAfter_holds follows venue rounds
  unfold turnIn turn at processed ⊢
  generalize turned : engine.processBar venue (engine.stateAfter venue rounds) round.bar round.world = turn
    at processed ⊢
  cases turned ▸ processBar_processes follows holds round.bar with
  | rejected error why => simp [Turn.isProcessed, rejection?_isRejection why] at processed
  | skipped => contradiction
  | looked turn accepted opens advances =>
    rw [observed_eq_looked] at advances
    exact ⟨turn, advances, rfl⟩

theorem turnIn_proceeds (follows : engine.strategy.Follows blueprint) (venue : Venue σ) (rounds : List (Round σ))
    (round : Round σ) :
    Proceeds engine blueprint venue (engine.stateAfter venue rounds) round (engine.turnIn venue rounds round) := by
  have holds := stateAfter_holds follows venue rounds
  unfold turnIn turn
  generalize turned : engine.processBar venue (engine.stateAfter venue rounds) round.bar round.world = turn
  cases turned ▸ processBar_processes follows holds round.bar with
  | rejected error why =>
    exact .unseen (engine.stateAfter venue rounds).lastTimestamp
      (by simp [Turn.isProcessed, rejection?_isRejection why]) rfl rfl
  | skipped accepted closed => exact .unseen (some round.bar.timestamp) rfl rfl rfl
  | looked turn accepted opens advances =>
    rw [observed_eq_looked] at advances
    exact advances.proceeds holds

end Engine

end TradingStrategy

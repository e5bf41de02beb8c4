import TradingStrategy.Engine.Basic

/-!
One bar of an engine.

Owns:
- the acceptance of a bar: its symbol, its time, and regular hours;
- what a bar is looked at for: its snapshot and the timer of the present stage;
- the choice of a transition, its actions and its commitment;
- the bars at which the program stops.

A transition is committed with everything that its actions have prepared, or it changes nothing: a refusal of the risk
gate or an error leaves the strategy where it was. What the venue has done for it stays done.
-/

namespace TradingStrategy

/-- What one bar leads to. -/
structure Turn (σ : Type) where
  result : Except EngineError BarOutcome
  state : EngineState
  world : World σ

/-- What the actions of a transition have prepared. -/
structure Staged where
  frozen : Option ResolvedPlan
  entryTimer : Option Nat
  orders : List Order
  events : List LogEvent
deriving Repr

namespace Staged

/-- Prepares one more log entry. -/
def note (staged : Staged) (event : LogEvent) : Staged :=
  { staged with events := staged.events ++ [event] }

end Staged

/-- How actions end. -/
inductive Attempt where
  | staged (effects : Staged)
  | refused (reason : RiskRefusal)
  | failed (error : EngineError)
deriving Repr

namespace EngineState

/-- Counts down the timer of the present stage. The end of the entry timer is logged, and nothing else comes of it. -/
def tick (state : EngineState) (timestamp : Calendar.Instant) : EngineState :=
  match state.stage, state.armTimer, state.entryTimer with
  | .armed, some left, _ => { state with armTimer := some (left - 1) }
  | .placed, _, some left =>
      if left - 1 = 0 then { state with entryTimer := none }.record timestamp .entryTimeout
      else { state with entryTimer := some (left - 1) }
  | _, _, _ => state

/-- Enters a stage with what was prepared for it. -/
def enter (state : EngineState) (stage : Stage) (timeout : Nat) (staged : Staged) : EngineState :=
  match stage with
  | .idle =>
      { state with
        stage := .idle, armTimer := none, entryTimer := none, frozen := none, bindings := [], orders := [] }
  | .armed =>
      { state with
        stage := .armed, armTimer := some timeout, frozen := staged.frozen
        bindings := plannedBindings staged.frozen }
  | .placed => { state with stage := .placed, armTimer := none, entryTimer := staged.entryTimer }
  | .managing => { state with stage := .managing, entryTimer := none }
  | .exited => { state with stage := .exited }

/-- Commits a transition: the new stage, its orders, and its log entries behind the one of the transition itself. -/
def commit (state : EngineState) (transition : Transition) (timeout : Nat) (staged : Staged)
    (timestamp : Calendar.Instant) : EngineState :=
  let entered := state.enter transition.target timeout staged
  let events := .transition transition.source transition.target :: staged.events
  events.foldl (fun state event => state.record timestamp event)
    { entered with orders := entered.orders ++ staged.orders }

end EngineState

namespace Engine

variable {σ : Type}

/-- The symbol of the frozen plan, which need not be that of the strategy. -/
def planSymbol (engine : Engine) (state : EngineState) : String :=
  match state.frozen with
  | some plan => plan.symbol
  | none => engine.strategy.symbol

/-- The engine's own orders as the venue shows them now. In a dry run the made-up orders are what they are. -/
def ownOrders (engine : Engine) (venue : Venue σ) (state : EngineState) (world : World σ) :
    Except EngineError (List Order) × World σ :=
  if state.orders.isEmpty then (.ok [], world)
  else if engine.options.environment.dryRun then (.ok state.orders, world)
  else
    match venue.queryOpen engine.options.environment (engine.planSymbol state) world with
    | (.ok shown, world) =>
        (.ok (shown.filter fun order => (state.orders.map Order.id).contains order.id), world)
    | (.error error, world) => (.error (.venue error), world)

/-- Whether a guard holds. -/
def guardHolds (engine : Engine) (venue : Venue σ) (state : EngineState) (guard : Guard) (world : World σ) :
    Except EngineError Bool × World σ :=
  match guard with
  | .always => (.ok true, world)
  | .armTimeout => (.ok (state.armTimer == some 0), world)
  | .expression condition =>
      match evaluateBool state.context condition with
      | .ok holds => (.ok holds, world)
      | .error error => (.error (.guard error), world)
  | .liveOrder =>
      match engine.ownOrders venue state world with
      | (.ok orders, world) => (.ok (orders.any Order.isLive), world)
      | (.error error, world) => (.error error, world)

/-- The first of some transitions whose guard holds. -/
def select (engine : Engine) (venue : Venue σ) (state : EngineState) :
    List Transition → World σ → Except EngineError (Option Transition) × World σ
  | [], world => (.ok none, world)
  | transition :: rest, world =>
      match engine.guardHolds venue state transition.guard world with
      | (.ok true, world) => (.ok (some transition), world)
      | (.ok false, world) => engine.select venue state rest world
      | (.error error, world) => (.error error, world)

/-- Resolves the order plan with an id. -/
def resolvePlan (engine : Engine) (state : EngineState) (planId : String) : Except EngineError ResolvedPlan :=
  match engine.strategy.orderPlan? planId with
  | none => .error (.unknownPlan planId)
  | some plan =>
      match plan.resolve state.history with
      | .ok resolved => .ok resolved
      | .error error => .error (.resolve error)

def submittedPlan? : Action → Option String
  | .submit planId => some planId
  | _ => none

/-- The plan that an armed strategy will submit: the first one that a transition from there submits. -/
def armedPlan? (strategy : Strategy) : Option String :=
  (strategy.transitionsFrom .armed).findSome? fun transition => transition.actions.findSome? submittedPlan?

/-- What is prepared in front of the actions. A strategy that arms resolves the plan that it will submit. -/
def prepare (engine : Engine) (state : EngineState) (target : Stage) : Except EngineError Staged :=
  if target = .armed then
    match armedPlan? engine.strategy with
    | none => .ok ⟨none, none, [], []⟩
    | some planId =>
        match engine.resolvePlan state planId with
        | .ok plan => .ok ⟨some plan, none, [], []⟩
        | .error error => .error error
  else .ok ⟨none, none, [], []⟩

/-- The plan to submit: the frozen one, if it has the id, and otherwise one that is resolved now. -/
def planToSubmit (engine : Engine) (state : EngineState) (staged : Staged) (planId : String) :
    Except EngineError ResolvedPlan :=
  match staged.frozen.or state.frozen with
  | some plan => if plan.planId = planId then .ok plan else engine.resolvePlan state planId
  | none => engine.resolvePlan state planId

/-- Submits a plan that passes the risk gate. -/
def submitPlan (engine : Engine) (venue : Venue σ) (staged : Staged) (plan : ResolvedPlan) (world : World σ) :
    Attempt × World σ :=
  match plan.gate engine.strategy.maxRisk with
  | .error reason => (.refused reason, world)
  | .ok assessment =>
      match venue.submit engine.options.environment plan world with
      | (.error error, world) => (.failed (.venue error), world)
      | (.ok orders, world) =>
          let noted := staged.note (.riskAccepted assessment.worst engine.strategy.maxRisk assessment.ratio)
            |>.note (.submitted (orders.map Order.id))
          (.staged { noted with orders := noted.orders ++ orders }, world)

/-- Prepares the effects of one action. -/
def perform (engine : Engine) (venue : Venue σ) (state : EngineState) (staged : Staged) (action : Action)
    (world : World σ) : Attempt × World σ :=
  match action with
  | .log message => (.staged (staged.note (.action message)), world)
  | .startTimer bars => (.staged { staged with entryTimer := some bars }, world)
  | .submit planId =>
      match engine.planToSubmit state staged planId with
      | .error error => (.failed error, world)
      | .ok plan => engine.submitPlan venue staged plan world
  | .cancelEntries =>
      match engine.ownOrders venue state world with
      | (.error error, world) => (.failed error, world)
      | (.ok orders, world) =>
          let (report, world) :=
            venue.cancelEntries engine.options.environment (engine.planSymbol state) orders world
          (.staged (staged.note (.entriesCancelled report)), world)

/-- Prepares the effects of actions, first to last; a refusal or an error ends them. -/
def performAll (engine : Engine) (venue : Venue σ) (state : EngineState) (staged : Staged) :
    List Action → World σ → Attempt × World σ
  | [], world => (.staged staged, world)
  | action :: rest, world =>
      match engine.perform venue state staged action world with
      | (.staged staged, world) => engine.performAll venue state staged rest world
      | (.refused reason, world) => (.refused reason, world)
      | (.failed error, world) => (.failed error, world)

/-- Takes a transition. -/
def take (engine : Engine) (venue : Venue σ) (state : EngineState) (timestamp : Calendar.Instant)
    (transition : Transition) (world : World σ) : Turn σ :=
  match engine.prepare state transition.target with
  | .error error => ⟨.error error, state, world⟩
  | .ok staged =>
      match engine.performAll venue state staged transition.actions world with
      | (.staged staged, world) =>
          ⟨.ok (.moved state.stage transition.target),
            state.commit transition engine.strategy.execution.entryTimeoutBars staged timestamp, world⟩
      | (.refused reason, world) =>
          ⟨.ok (.refused state.stage reason), state.record timestamp (.refused reason), world⟩
      | (.failed error, world) => ⟨.error error, state, world⟩

/-- Takes the first transition from the present stage whose guard holds, if there is one. -/
def advance (engine : Engine) (venue : Venue σ) (state : EngineState) (timestamp : Calendar.Instant)
    (world : World σ) : Turn σ :=
  match engine.select venue state (engine.strategy.transitionsFrom state.stage) world with
  | (.error error, world) => ⟨.error error, state, world⟩
  | (.ok none, world) => ⟨.ok (.stayed state.stage), state, world⟩
  | (.ok (some transition), world) => engine.take venue state timestamp transition world

/-- An abandoned step leaves an entry in the log. -/
def logError (timestamp : Calendar.Instant) (turn : Turn σ) : Turn σ :=
  match turn.result with
  | .ok _ => turn
  | .error error => { turn with state := turn.state.record timestamp (.failed error) }

/-- Looks at a bar: its snapshot enters the history, and the timer of the present stage is counted down. -/
def observe (engine : Engine) (state : EngineState) (bar : Bar) : EngineState :=
  { state with
    history := state.history.push (engine.pipeline.compute bar state.history.snapshots)
    barsProcessed := state.barsProcessed + 1 }.tick bar.timestamp

/-- Why a bar is rejected. -/
def rejection? (engine : Engine) (state : EngineState) (bar : Bar) : Option EngineError :=
  if bar.symbol ≠ engine.strategy.symbol then some (.symbolMismatch engine.strategy.symbol bar.symbol)
  else match state.lastTimestamp with
    | some previous => if previous.before bar.timestamp then none else some (.outOfOrder previous bar.timestamp)
    | none => none

/-- A bar is looked at: at all hours, or in regular hours only. -/
def looksAt (engine : Engine) (bar : Bar) : Bool :=
  !engine.strategy.execution.regularHoursOnly || engine.options.session.contains bar.timestamp

/-- Processes one bar. -/
def processBar (engine : Engine) (venue : Venue σ) (state : EngineState) (bar : Bar) (world : World σ) : Turn σ :=
  match engine.rejection? state bar with
  | some error => ⟨.error error, state, world⟩
  | none =>
      let state := { state with lastTimestamp := some bar.timestamp }
      if engine.looksAt bar then
        logError bar.timestamp (engine.advance venue (engine.observe state bar) bar.timestamp world)
      else ⟨.ok .skipped, state, world⟩

/-- The bar is accepted, and whether it lies in regular hours cannot be told: its instant has no local time. -/
def stopsAt (engine : Engine) (state : EngineState) (bar : Bar) : Bool :=
  (engine.rejection? state bar).isNone && engine.strategy.execution.regularHoursOnly &&
    (engine.options.session.localTime? bar.timestamp).isNone

/-- Processes one bar, unless the program stops at it. -/
def processBar? (engine : Engine) (venue : Venue σ) (state : EngineState) (bar : Bar) (world : World σ) :
    Option (Turn σ) :=
  if engine.stopsAt state bar then none else some (engine.processBar venue state bar world)

end Engine

end TradingStrategy

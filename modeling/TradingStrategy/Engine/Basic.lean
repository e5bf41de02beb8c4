import TradingStrategy.Engine.Log
import TradingStrategy.Feature.Plan
import TradingStrategy.Market.Session

/-!
The engine of one strategy.

Owns: what an engine is made of and never changes, and the state that it carries from bar to bar.
-/

namespace TradingStrategy

/-- How an engine runs. -/
structure EngineOptions where
  environment : Environment
  session : TradingSession
  historyBars : Nat
deriving Repr, DecidableEq

/-- A dry run in the regular session with the longest history. -/
def EngineOptions.default : EngineOptions :=
  ⟨.dry, .regular, maxHistory⟩

/-- A strategy that is bound to the features of its plan. -/
structure Engine where
  strategy : Strategy
  pipeline : Pipeline
  options : EngineOptions

namespace Engine

/-- Binds a strategy to a registry. -/
def ofStrategy (strategy : Strategy) (registry : Registry) (options : EngineOptions) : Except EngineError Engine :=
  match Pipeline.ofPlan strategy.featurePlan registry with
  | .ok pipeline => .ok ⟨strategy, pipeline, options⟩
  | .error name => .error (.missingFeature name)

end Engine

/-- The runtime variables that a strategy takes over from the plan it freezes. -/
def plannedBindings : Option ResolvedPlan → List (String × Float)
  | some plan => plan.bindings
  | none => []

/-- What an engine carries from bar to bar. -/
structure EngineState where
  stage : Stage
  history : History
  /-- The bars that are left until an armed strategy gives up. -/
  armTimer : Option Nat
  /-- The bars that are left for a placed entry to become live. Its end is only logged. -/
  entryTimer : Option Nat
  /-- The plan that was resolved when the strategy armed. -/
  frozen : Option ResolvedPlan
  /-- The runtime variables. They are set and cleared along with the frozen plan. -/
  bindings : List (String × Float)
  /-- The orders that were submitted since the strategy last was idle. -/
  orders : List Order
  lastTimestamp : Option Calendar.Instant
  barsProcessed : Nat
  log : List LogEntry
deriving Repr

namespace EngineState

/-- The state in front of the first bar. -/
def start (stage : Stage) (historyBars : Nat) : EngineState where
  stage := stage
  history := .empty historyBars
  armTimer := none
  entryTimer := none
  frozen := none
  bindings := []
  orders := []
  lastTimestamp := none
  barsProcessed := 0
  log := []

/-- What guards are evaluated in. They see the runtime variables while a plan is frozen. -/
def context (state : EngineState) : EvalContext :=
  if state.frozen.isSome then ⟨state.history, state.bindings⟩ else .ofHistory state.history

theorem context_history (state : EngineState) : state.context.history = state.history := by
  unfold context
  split <;> rfl

/-- Writes an entry in the present stage. -/
def record (state : EngineState) (timestamp : Calendar.Instant) (event : LogEvent) : EngineState :=
  { state with log := state.log ++ [⟨timestamp, state.stage, event⟩] }

end EngineState

/-- The state of an engine in front of its first bar. -/
def Engine.startState (engine : Engine) : EngineState :=
  .start engine.strategy.start engine.options.historyBars

end TradingStrategy

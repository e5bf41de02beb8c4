import TradingStrategy.Engine.Step
import TradingStrategy.Json.Value

/-!
Runs and their reports.

Owns:
- a run of one engine over bars, and the report that it gives;
- a run of several engines, each with a venue of its own, in which an engine gets the bars of its symbol in their order.

A bar that fails is counted, and the run goes on. A bar at which the program stops ends the run of its engine without a
report, and leaves the others alone.
-/

namespace TradingStrategy

/-- What a run of one engine has come to. -/
structure RunReport where
  strategy : String
  symbol : String
  received : Nat
  skipped : Nat
  transitions : Nat
  refusals : Nat
  errors : Nat
  finalStage : Stage
  log : List LogEntry
deriving Repr

/-- How many bars had which outcome. -/
structure Tally where
  received : Nat
  skipped : Nat
  transitions : Nat
  refusals : Nat
  errors : Nat
deriving Repr, DecidableEq

namespace Tally

/-- No bars. -/
def zero : Tally :=
  ⟨0, 0, 0, 0, 0⟩

def count (tally : Tally) (result : Except EngineError BarOutcome) : Tally :=
  let tally := { tally with received := tally.received + 1 }
  match result with
  | .ok .skipped => { tally with skipped := tally.skipped + 1 }
  | .ok (.moved ..) => { tally with transitions := tally.transitions + 1 }
  | .ok (.refused ..) => { tally with refusals := tally.refusals + 1 }
  | .ok (.stayed _) => tally
  | .error _ => { tally with errors := tally.errors + 1 }

end Tally

/-- An engine in a run: its state, its venue's world, and the outcomes so far. -/
structure RunState (σ : Type) where
  state : EngineState
  world : World σ
  tally : Tally

namespace Engine

variable {σ : Type}

/-- The run in front of the first bar. -/
def runStart (engine : Engine) (world : World σ) : RunState σ :=
  ⟨engine.startState, world, .zero⟩

/-- One more bar of a run. -/
def runStep (engine : Engine) (venue : Venue σ) (run : RunState σ) (bar : Bar) : RunState σ :=
  let turn := engine.processBar venue run.state bar run.world
  ⟨turn.state, turn.world, run.tally.count turn.result⟩

/-- One more bar of a run, unless the program stops at it. -/
def runStep? (engine : Engine) (venue : Venue σ) (run : RunState σ) (bar : Bar) : Option (RunState σ) :=
  (engine.processBar? venue run.state bar run.world).map fun turn =>
    ⟨turn.state, turn.world, run.tally.count turn.result⟩

/-- The run behind bars, unless the program stops at one of them. -/
def runTo? (engine : Engine) (venue : Venue σ) (world : World σ) (bars : List Bar) : Option (RunState σ) :=
  bars.foldlM (engine.runStep? venue) (engine.runStart world)

def report (engine : Engine) (run : RunState σ) : RunReport where
  strategy := engine.strategy.name
  symbol := engine.strategy.symbol
  received := run.tally.received
  skipped := run.tally.skipped
  transitions := run.tally.transitions
  refusals := run.tally.refusals
  errors := run.tally.errors
  finalStage := run.state.stage
  log := run.state.log

/-- Runs an engine over bars. -/
def run (engine : Engine) (venue : Venue σ) (world : World σ) (bars : List Bar) : RunReport :=
  engine.report (bars.foldl (engine.runStep venue) (engine.runStart world))

/-- The bars of an engine's symbol. -/
def barsOf (engine : Engine) (bars : List Bar) : List Bar :=
  bars.filter fun bar => bar.symbol == engine.strategy.symbol

end Engine

/-- An engine that takes part in a run, with its venue and the world that it starts in. -/
structure Participant where
  engine : Engine
  State : Type
  venue : Venue State
  world : World State

/-- Runs engines over bars at which none of them stops. The reports come in the order of the engines. -/
def runAll (participants : List Participant) (bars : List Bar) : List RunReport :=
  participants.map fun participant =>
    participant.engine.run participant.venue participant.world (participant.engine.barsOf bars)

/-- Runs engines over bars. An engine that has stopped has no report. -/
def runTasks (participants : List Participant) (bars : List Bar) : List RunReport :=
  participants.filterMap fun participant =>
    let bars := participant.engine.barsOf bars
    (participant.engine.runTo? participant.venue participant.world bars).map participant.engine.report

def LogEntry.toJson (entry : LogEntry) : Json :=
  .object [("timestamp", .string entry.timestamp.documentText), ("state", .string entry.stage.name),
    ("kind", .string entry.event.kind.name), ("message", .string entry.event.message)]

def RunReport.toJson (report : RunReport) : Json :=
  .object [("strategy", .string report.strategy), ("symbol", .string report.symbol),
    ("bars_received", .int report.received), ("skipped", .int report.skipped),
    ("transitions", .int report.transitions), ("refusals", .int report.refusals), ("errors", .int report.errors),
    ("final_state", .string report.finalStage.name), ("log", .array (report.log.map LogEntry.toJson))]

end TradingStrategy

import TradingStrategy.Command.Arguments
import TradingStrategy.Command.Fault
import TradingStrategy.Command.Text
import TradingStrategy.Strategy.Codec
import TradingStrategy.Strategy.Compile
import TradingStrategy.Venue.Cached
import TradingStrategy.Venue.Paper

/-!
Running commands.

Owns: what each command does with the files that it is given, its two output texts, and its exit code. How files are
read and written is left to the caller, so that a command can run on real files as well as on texts in memory.
-/

namespace TradingStrategy

/-- How files are read and written. An error is the reason in words. -/
structure FileAccess (m : Type → Type) where
  read : String → m (Except String String)
  write : String → String → m (Except String Unit)

/-- What a command has printed, and why it has failed, if it has. -/
structure CommandOutcome where
  output : String
  messages : String
  error : Option CommandError
deriving Repr

namespace CommandOutcome

/-- A command that has succeeded. -/
def success (output messages : List String) : CommandOutcome :=
  ⟨linesText output, linesText messages, none⟩

/-- A command that has failed behind some messages. -/
def failure (messages : List String) (error : CommandError) : CommandOutcome :=
  ⟨"", linesText (messages ++ error.lines), some error⟩

def exitCode (outcome : CommandOutcome) : Nat :=
  match outcome.error with
  | some error => error.exitCode
  | none => 0

end CommandOutcome

/-- The reports of a run on the paper venue behind a cache. -/
def backtestReports (strategy : Strategy) (settings : Settings) (bars : List Bar) :
    Except CommandError (List RunReport) :=
  match Engine.ofStrategy strategy Registry.default settings.engineOptions with
  | .error error => .error (.engine error)
  | .ok engine =>
      let venue := PaperScript.plain.venue.cached settings.openOrdersTtl
      .ok (runTasks [⟨engine, Cached PaperBook, venue, ⟨0, .ofInner .empty⟩⟩] bars)

/-- The printed form of reports. -/
def reportText (json : Bool) (reports : List RunReport) : String :=
  if json then (Json.array (reports.map RunReport.toJson)).pretty ++ "\n"
  else linesText (reports.flatMap RunReport.lines)

namespace Command

variable {m : Type → Type} [Monad m]

/-- The strategy of a file. -/
def loadStrategy (files : FileAccess m) (path : String) : m (Except CommandError Strategy) := do
  match ← files.read path with
  | .error reason => return .error (.file reason)
  | .ok text =>
      match Strategy.ofDocumentText Registry.default text with
      | .ok strategy => return .ok strategy
      | .error error => return .error (.compile error)

/-- A settings file. -/
def loadIni (files : FileAccess m) (path : String) : m (Except CommandError Ini) := do
  match ← files.read path with
  | .error reason => return .error (.config path (.unreadable reason))
  | .ok text =>
      match Ini.read text with
      | .ok ini => return .ok ini
      | .error fault => return .error (.config path (.lines fault))

/-- The settings of a file, or the default settings. -/
def loadSettings (files : FileAccess m) : Option String → m (Except CommandError Settings)
  | none => return .ok .default
  | some path => do
      match ← loadIni files path with
      | .error error => return .error error
      | .ok ini =>
          match Settings.ofIni ini with
          | .ok settings => return .ok settings
          | .error error => return .error (.setting error)

/-- The bars of a file for a symbol; there must be some. -/
def loadBars (files : FileAccess m) (path symbol : String) : m (Except CommandError (List Bar)) := do
  match ← files.read path with
  | .error reason => return .error (.data (.unreadable path reason))
  | .ok text =>
      match readBars symbol text with
      | .error fault => return .error (.data (.bars fault))
      | .ok [] => return .error (.data (.noBars path))
      | .ok bars => return .ok bars

/-- Writes the compiled form of a strategy to a file or prints it. -/
def runCompile (files : FileAccess m) (path : String) (output : Option String) : m CommandOutcome := do
  match ← loadStrategy files path with
  | .error error => return .failure [] error
  | .ok strategy =>
      match output with
      | none => return .success [strategy.text] []
      | some target =>
          match ← files.write target strategy.text with
          | .error reason => return .failure [] (.file reason)
          | .ok () => return .success [] ["Wrote IR for '" ++ strategy.name ++ "' to " ++ target]

/-- Describes a strategy. -/
def runValidate (files : FileAccess m) (path : String) : m CommandOutcome := do
  let heading := ["Validating strategy: " ++ path]
  match ← loadStrategy files path with
  | .error error => return .failure heading error
  | .ok strategy => return .success strategy.description (heading ++ ["", "Strategy is valid."])

/-- Runs a strategy over bars. -/
def runBacktest (files : FileAccess m) (path barsPath : String) (config : Option String) (json : Bool) :
    m CommandOutcome := do
  match ← loadSettings files config with
  | .error error => return .failure [] error
  | .ok settings =>
      match ← loadStrategy files path with
      | .error error => return .failure [] error
      | .ok strategy =>
          match ← loadBars files barsPath strategy.symbol with
          | .error error => return .failure [] error
          | .ok bars =>
              match backtestReports strategy settings bars with
              | .error error => return .failure [] error
              | .ok reports => return ⟨reportText json reports, "", none⟩

def run (files : FileAccess m) : Command → m CommandOutcome
  | compile strategy output => runCompile files strategy output
  | validate strategy => runValidate files strategy
  | backtest strategy bars config json => runBacktest files strategy bars config json
  | features => return .success Registry.default.table []

/-- The log level that the settings file of a command names, if there is one that can be read. -/
def logLevel? (files : FileAccess m) : Command → m (Option String)
  | backtest _ _ (some path) _ => do
      match ← loadIni files path with
      | .ok ini => return ini.string? "logging" "level"
      | .error _ => return none
  | _ => return none

end Command

end TradingStrategy

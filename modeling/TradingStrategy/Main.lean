import TradingStrategy.Command.Disk

/-!
The program.

Owns: the real files and streams of the command line. Everything else is `Command.run`.
-/

namespace TradingStrategy

/-- The reason of a failed access in words. -/
def accessReason : IO.Error → String
  | .noFileOrDirectory .. => AccessFault.missing.message
  | error => toString error

/-- An access whose failure is a value. -/
def attempt {α : Type} (access : IO α) : IO (Except String α) := do
  try
    return .ok (← access)
  catch error =>
    return .error (accessReason error)

def systemFiles : FileAccess IO where
  read path := attempt (IO.FS.readFile path)
  write path text := attempt (IO.FS.writeFile path text)

/-- How the program is called. -/
def usage : String :=
  linesText ["usage: compile -s FILE [-o FILE]", "       validate -s FILE",
    "       backtest -s FILE -b FILE [-c FILE] [--json]", "       features"]

/-- Runs the command that arguments ask for, and gives its exit code. -/
def program (arguments : List String) : IO UInt32 := do
  match Command.parse? arguments with
  | none =>
      IO.eprint usage
      return 2
  | some command =>
      let outcome ← command.run systemFiles
      IO.print outcome.output
      IO.eprint outcome.messages
      return UInt32.ofNat outcome.exitCode

end TradingStrategy

/-- The program. -/
def main (arguments : List String) : IO UInt32 :=
  TradingStrategy.program arguments

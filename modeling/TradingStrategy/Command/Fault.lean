import TradingStrategy.Json.Printer
import TradingStrategy.Market.BarFile
import TradingStrategy.Settings.Basic
import TradingStrategy.Strategy.CompileError

/-!
Why a command fails.

Owns: the causes, their wording with the marked place of an expression, and the exit codes.
-/

namespace TradingStrategy

/-- Why there are no bars. -/
inductive DataFault where
  | unreadable (file reason : String)
  | bars (fault : BarFault)
  | noBars (file : String)
deriving Repr, DecidableEq

def DataFault.message : DataFault → String
  | unreadable file reason => "failed to read " ++ file ++ ": " ++ reason
  | bars fault => fault.message
  | noBars file => "no bars in " ++ file

/-- Why settings cannot be read. -/
inductive ConfigFault where
  | unreadable (reason : String)
  | lines (fault : IniFault)
deriving Repr, DecidableEq

def ConfigFault.message : ConfigFault → String
  | unreadable reason => reason
  | lines fault => fault.message

/-- The wording for settings that cannot be read from a source. -/
def configMessage (source reason : String) : String :=
  "config parse error in " ++ source ++ ": " ++ reason

/-- Why a command fails. -/
inductive CommandError where
  /-- A file cannot be read or written. -/
  | file (reason : String)
  | config (file : String) (fault : ConfigFault)
  | setting (error : SettingError)
  | data (fault : DataFault)
  | compile (error : CompileError)
  | engine (error : EngineError)
deriving Repr

namespace CommandError

def exitCode : CommandError → Nat
  | file _ => 1
  | config .. | setting _ => 2
  | data _ => 3
  | compile _ => 4
  | engine _ => 5

def message : CommandError → String
  | file reason => reason
  | config path fault => configMessage path ("couldn't read " ++ path ++ ": " ++ fault.message)
  | setting error => error.message
  | data fault => "data error: " ++ fault.message
  | compile error => error.code ++ ": " ++ error.message
  | engine error => error.message

/-- The expression that cannot be parsed, with a mark under the place. -/
def markedExpression : CompileError → List String
  | .parse _ expression error =>
      ["  " ++ expression, "  " ++ String.ofList (List.replicate error.position ' ') ++ "^"]
  | _ => []

/-- The lines that report an error. -/
def lines (error : CommandError) : List String :=
  ("error: " ++ error.message) :: match error with
    | compile error => markedExpression error ++ ["  code: " ++ error.code, "  details: " ++ error.details.compact]
    | _ => []

end CommandError

end TradingStrategy

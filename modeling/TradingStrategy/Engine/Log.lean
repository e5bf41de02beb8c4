import TradingStrategy.Order.Resolve
import TradingStrategy.Order.Risk
import TradingStrategy.Venue.Basic

/-!
What a run tells.

Owns: the errors of a bar, the outcomes of a bar, and the audit log with its entries and their wording.
-/

namespace TradingStrategy

/-- Why a bar is rejected or its step is abandoned. -/
inductive EngineError where
  | outOfOrder (previous found : Calendar.Instant)
  | symbolMismatch (expected found : String)
  /-- A guard has no value or is not boolean. -/
  | guard (error : EvalError)
  | resolve (error : ResolveError)
  | venue (error : VenueError)
  /-- The feature plan names what the registry does not know. -/
  | missingFeature (name : String)
  | unknownPlan (id : String)
deriving Repr

def EngineError.message : EngineError → String
  | outOfOrder previous found =>
      "bar at " ++ found.offsetText ++ " is not after previous bar at " ++ previous.offsetText
  | symbolMismatch expected found =>
      "bar symbol " ++ found ++ " does not match strategy symbol " ++ expected
  | guard error => error.message
  | resolve error => error.message
  | venue error => error.message
  | missingFeature name => "feature '" ++ name ++ "' in plan is not registered"
  | unknownPlan id => "order plan '" ++ id ++ "' not found"

/-- What a bar has led to. -/
inductive BarOutcome where
  /-- The bar lies outside regular hours and was not looked at. -/
  | skipped
  | stayed (stage : Stage)
  | moved (source target : Stage)
  /-- The risk gate has refused the plan, and the strategy stays where it is. -/
  | refused (stage : Stage) (reason : RiskRefusal)
deriving Repr, DecidableEq

/-- The kinds of log entries. -/
inductive LogKind where
  | transition | action | order | refusal | timer | error
deriving Repr, DecidableEq

/-- The name of a kind of log entries. -/
def LogKind.name : LogKind → String
  | transition => "transition"
  | action => "action"
  | order => "order"
  | refusal => "refusal"
  | timer => "timer"
  | error => "error"

/-- What a log entry tells. -/
inductive LogEvent where
  | transition (source target : Stage)
  | action (message : String)
  /-- The plan has passed the risk gate. -/
  | riskAccepted (worst limit ratio : Float)
  | submitted (ids : List String)
  | entriesCancelled (report : CancelReport)
  | refused (reason : RiskRefusal)
  | entryTimeout
  | failed (error : EngineError)
deriving Repr

/-- The wording of a failed cancellation. -/
def CancelFailure.text (failure : CancelFailure) : String :=
  failure.id ++ " (" ++ failure.error.message ++ ")"

def bracketed (texts : List String) : String :=
  "[" ++ Text.joined ", " texts ++ "]"

namespace LogEvent

def kind : LogEvent → LogKind
  | transition .. => .transition
  | action _ => .action
  | riskAccepted .. | submitted _ | entriesCancelled _ => .order
  | refused _ => .refusal
  | entryTimeout => .timer
  | failed _ => .error

def message : LogEvent → String
  | transition source target => source.name ++ " -> " ++ target.name
  | action text => text
  | riskAccepted worst limit ratio =>
      "Risk " ++ Number.fixed 2 worst ++ " within " ++ Number.fixed 2 limit ++ ", rr " ++ Number.fixed 2 ratio
  | submitted ids => "Submitted " ++ toString ids.length ++ " legs: " ++ Text.joined ", " ids
  | entriesCancelled report =>
      "Cancelled entries: " ++ bracketed report.cancelled ++
        (if report.isComplete then "" else "; failed: " ++ bracketed (report.failed.map CancelFailure.text))
  | refused reason => reason.message
  | entryTimeout => "Entry timeout elapsed"
  | failed error => error.message

end LogEvent

/-- An entry of the audit log: the time of the bar and the stage in which it was written. -/
structure LogEntry where
  timestamp : Calendar.Instant
  stage : Stage
  event : LogEvent
deriving Repr

end TradingStrategy

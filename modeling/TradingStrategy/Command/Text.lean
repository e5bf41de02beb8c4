import TradingStrategy.Expr.Printer
import TradingStrategy.Order.Resolve
import TradingStrategy.Order.Risk
import TradingStrategy.Run.Report

/-!
What commands print.

Owns: the description of a strategy, the table of features, and the report of a run, as lines of text.
-/

namespace TradingStrategy

/-- A text with blanks behind it up to a width. -/
def padRight (width : Nat) (text : String) : String :=
  text ++ String.ofList (List.replicate (width - text.length) ' ')

/-- A text with blanks in front of it up to a width. -/
def padLeft (width : Nat) (text : String) : String :=
  String.ofList (List.replicate (width - text.length) ' ') ++ text

/-- A text of lines, each with a line feed at its end. -/
def linesText (lines : List String) : String :=
  String.join (lines.map fun line => line ++ "\n")

/-! ### Features -/

/-- The row of a feature in the table. -/
def FeatureDescriptor.row (descriptor : FeatureDescriptor) : String :=
  padRight 20 descriptor.name ++ " " ++
    if descriptor.dependencies.isEmpty then descriptor.kind.name
    else padRight 15 descriptor.kind.name ++ " <- " ++ Text.joined ", " descriptor.dependencies

/-- The table of the features of a registry. -/
def Registry.table (registry : Registry) : List String :=
  (registry.names.filterMap registry.describe?).map FeatureDescriptor.row

/-! ### Strategies -/

namespace Strategy

/-- An entry of the feature plan with its number. -/
def featureLine (number : Nat) (descriptor : FeatureDescriptor) : String :=
  "  " ++ padLeft 2 (toString number) ++ ". " ++ descriptor.name ++ " [" ++ descriptor.kind.name ++ "]" ++
    if descriptor.dependencies.isEmpty then "" else " <- " ++ Text.joined ", " descriptor.dependencies

/-- A guard in words. -/
def guardText (strategy : Strategy) : Guard → String
  | .expression condition => condition.text
  | .always => "always"
  | .armTimeout => "arm timeout (" ++ toString strategy.execution.entryTimeoutBars ++ " bars)"
  | .liveOrder => "live order exists"

/-- A transition with its guard. -/
def transitionLine (strategy : Strategy) (transition : Transition) : String :=
  "  " ++ padRight 8 transition.source.name ++ " -> " ++ padRight 8 transition.target.name ++ " when " ++
    strategy.guardText transition.guard

/-- A price: its number, or its expression in angle brackets. -/
def slotText : PriceSlot → String
  | .literal value => Number.plain value
  | .expression _ source _ => "<" ++ source ++ ">"

/-- A target with its number and its part of the position. -/
def targetLine (number : Nat) (target : Target) : String :=
  "    target " ++ toString number ++ ": " ++ slotText target.price ++ " (" ++
    Number.fixed 0 (target.ratio * 100.0) ++ "%)"

/-- Numbers the items of a list from one on. -/
def numbered {α : Type} (line : Nat → α → String) (number : Nat) : List α → List String
  | [] => []
  | first :: rest => line number first :: numbered line (number + 1) rest

/-- The risk of a plan whose prices are all fixed. -/
def riskLines (strategy : Strategy) (plan : ResolvedPlan) : List String :=
  let risk := plan.assess
  let label := (ratioLabel? risk.ratio).getD "below 1:1"
  ("    worst-case risk " ++ Number.fixed 2 risk.worst ++ " (max " ++ Number.fixed 2 strategy.maxRisk ++
    "), rr worst " ++ Number.fixed 2 risk.ratio ++ " [" ++ label ++ "], rr weighted " ++
    Number.fixed 2 risk.weightedRatio) ::
  match plan.gate strategy.maxRisk with
  | .ok _ => []
  | .error refusal => ["    warning: " ++ refusal.message]

/-- An order plan with its targets and, where it is known, its risk. -/
def planLines (strategy : Strategy) (plan : OrderPlan) : List String :=
  ("  " ++ plan.id ++ " " ++ plan.side.name ++ " " ++ plan.symbol ++ " x" ++ Number.plain plan.quantity ++
    " zone [" ++ slotText plan.zoneLow ++ ", " ++ slotText plan.zoneHigh ++ "] stop " ++ slotText plan.stop) ::
  numbered targetLine 1 plan.targets ++
  match plan.literal? with
  | some resolved => strategy.riskLines resolved
  | none => ["    risk resolved when the strategy arms"]

def description (strategy : Strategy) : List String :=
  ["Strategy: " ++ strategy.name ++ " (" ++ strategy.symbol ++ " " ++ strategy.timeframe.name ++ ")",
    "", "Feature plan:"] ++ numbered featureLine 1 strategy.featurePlan ++
  ["", "Transitions:"] ++ strategy.transitions.map strategy.transitionLine ++
  ["", "Order plans:"] ++ strategy.orderPlans.flatMap strategy.planLines

end Strategy

/-! ### Runs -/

namespace RunReport

def entryLine (entry : LogEntry) : String :=
  "  " ++ entry.timestamp.minuteText ++ " " ++ padRight 8 entry.stage.name ++ " " ++
    padRight 10 entry.event.kind.name ++ " " ++ entry.event.message

def lines (report : RunReport) : List String :=
  ["Strategy: " ++ report.strategy ++ " (" ++ report.symbol ++ ")",
    "Bars: " ++ toString report.received ++ " (skipped " ++ toString report.skipped ++ "), transitions: " ++
      toString report.transitions ++ ", refusals: " ++ toString report.refusals ++ ", errors: " ++
      toString report.errors,
    "", "Audit log:"] ++ report.log.map entryLine ++
  ["", "Final state: " ++ report.finalStage.name]

end RunReport

end TradingStrategy

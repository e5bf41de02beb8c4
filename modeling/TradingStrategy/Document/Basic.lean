import TradingStrategy.Feature.Basic
import TradingStrategy.Market.Timeframe

/-!
Strategy documents.

Owns: what an author writes about a strategy: its name, symbol and timeframe, the declared features, the rules, the
order plans, the execution options and the risk limit. Expressions are still text here.
-/

namespace TradingStrategy

/-- The name of a strategy, its symbol and its timeframe. -/
structure StrategyMeta where
  name : String
  symbol : String
  timeframe : Timeframe
deriving Repr, DecidableEq

/-- A feature that a strategy wants to use. -/
structure FeatureDeclaration where
  name : String
  kind : FeatureKind
  params : Json
deriving Repr

/-- The rules of a strategy: when it arms, when it places its orders, and when it gives up. -/
structure Rules where
  arm : String
  trigger : String
  invalidate : List String
deriving Repr, DecidableEq

/-- A price as a number or as the text of an expression. -/
inductive PriceSpec where
  | literal (value : Float)
  | expression (text : String)
deriving Repr, DecidableEq

namespace PriceSpec

def literal? : PriceSpec → Option Float
  | literal value => some value
  | expression _ => none

end PriceSpec

/-- A target: its price and the part of the position that it takes. -/
structure TargetDeclaration where
  price : PriceSpec
  ratio : Float
deriving Repr, DecidableEq

/-- An order plan as it is declared. -/
structure PlanDeclaration where
  id : String
  symbol : String
  side : Side
  zoneLow : PriceSpec
  zoneHigh : PriceSpec
  quantity : Float
  stop : PriceSpec
  targets : List TargetDeclaration
deriving Repr, DecidableEq

/-- The execution options. -/
structure Execution where
  entryTimeoutBars : Nat
  regularHoursOnly : Bool
deriving Repr, DecidableEq

namespace Execution

/-- Ten bars of patience, at all hours. -/
def default : Execution :=
  ⟨10, false⟩

end Execution

/-- A strategy document. -/
structure StrategyDocument where
  info : StrategyMeta
  features : List FeatureDeclaration
  rules : Rules
  orderPlans : List PlanDeclaration
  execution : Execution
  maxRisk : Float
deriving Repr

namespace StrategyDocument

/-- The names of the declared features. -/
def featureNames (document : StrategyDocument) : List String :=
  document.features.map FeatureDeclaration.name

end StrategyDocument

end TradingStrategy

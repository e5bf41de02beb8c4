import TradingStrategy.Document.Basic
import TradingStrategy.Expr.Basic

/-!
Compiled strategies.

Owns: the stages of a strategy, the transitions between them with their guards and actions, order plans whose prices
are numbers or parsed expressions, and the strategy that holds them together with its feature plan, its execution
options and its risk limit.

A compiled strategy says everything that a run needs and is never changed by one.
-/

namespace TradingStrategy

/-- The stages of a strategy. -/
inductive Stage where
  | idle | armed | placed | managing | exited
deriving Repr, DecidableEq

namespace Stage

def all : List Stage :=
  [idle, armed, placed, managing, exited]

def name : Stage → String
  | idle => "IDLE"
  | armed => "ARMED"
  | placed => "PLACED"
  | managing => "MANAGING"
  | exited => "EXITED"

end Stage

/-- When a transition may be taken. -/
inductive Guard where
  /-- The expression is true of the newest snapshot. -/
  | expression (condition : Expr)
  | always
  /-- The arm timer has reached zero. -/
  | armTimeout
  /-- The venue shows one of the strategy's own orders as live. -/
  | liveOrder
deriving Repr

/-- What a transition does. -/
inductive Action where
  | log (message : String)
  | submit (planId : String)
  | startTimer (bars : Nat)
  | cancelEntries
deriving Repr, DecidableEq

/-- A step from one stage to another. -/
structure Transition where
  source : Stage
  target : Stage
  guard : Guard
  actions : List Action
deriving Repr

/-- A price: fixed, or an expression that is evaluated when the plan is resolved. -/
inductive PriceSlot where
  | literal (value : Float)
  /-- The parsed expression, its text, and a number that stands in its place until it is resolved. -/
  | expression (price : Expr) (source : String) (placeholder : Float)
deriving Repr

namespace PriceSlot

/-- The number of a fixed price. -/
def literal? : PriceSlot → Option Float
  | literal value => some value
  | expression .. => none

/-- The price is fixed. -/
def isLiteral (slot : PriceSlot) : Bool :=
  slot.literal?.isSome

/-- Equality that compares numbers by value. -/
def agrees : PriceSlot → PriceSlot → Bool
  | literal a, literal b => a == b
  | expression price source placeholder, expression price' source' placeholder' =>
      price.agrees price' && source == source' && placeholder == placeholder'
  | _, _ => false

end PriceSlot

/-- A target: its price and the part of the position that it takes. -/
structure Target where
  price : PriceSlot
  ratio : Float
deriving Repr

/-- Equality that compares numbers by value. -/
def Target.agrees (a b : Target) : Bool :=
  a.price.agrees b.price && a.ratio == b.ratio

/-- An order plan: where to enter, where to stop, and where to take profits. -/
structure OrderPlan where
  id : String
  symbol : String
  side : Side
  zoneLow : PriceSlot
  zoneHigh : PriceSlot
  quantity : Float
  stop : PriceSlot
  targets : List Target
deriving Repr

namespace OrderPlan

/-- All prices of a plan are fixed. -/
def isLiteral (plan : OrderPlan) : Bool :=
  plan.zoneLow.isLiteral && plan.zoneHigh.isLiteral && plan.stop.isLiteral &&
    plan.targets.all fun target => target.price.isLiteral

/-- Equality that compares numbers by value: both zeros are equal. -/
def agrees (a b : OrderPlan) : Bool :=
  a.id == b.id && a.symbol == b.symbol && a.side == b.side && a.zoneLow.agrees b.zoneLow &&
    a.zoneHigh.agrees b.zoneHigh && a.quantity == b.quantity && a.stop.agrees b.stop &&
    a.targets.length == b.targets.length && (a.targets.zip b.targets).all fun (a, b) => a.agrees b

end OrderPlan

/-- A compiled strategy. -/
structure Strategy where
  name : String
  symbol : String
  timeframe : Timeframe
  start : Stage
  featurePlan : List FeatureDescriptor
  transitions : List Transition
  orderPlans : List OrderPlan
  execution : Execution
  maxRisk : Float
deriving Repr

namespace Strategy

/-- The transitions that leave a stage, in the order of the table. -/
def transitionsFrom (strategy : Strategy) (stage : Stage) : List Transition :=
  strategy.transitions.filter fun transition => transition.source == stage

/-- The first order plan with an id. -/
def orderPlan? (strategy : Strategy) (id : String) : Option OrderPlan :=
  strategy.orderPlans.find? fun plan => plan.id == id

end Strategy

end TradingStrategy

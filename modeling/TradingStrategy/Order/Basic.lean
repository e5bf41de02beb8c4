import TradingStrategy.Market.Timeframe

/-!
Orders.

Owns: the legs that are sent to a venue, the orders that a venue makes of them, and the states in which an order is
open or live.
-/

namespace TradingStrategy

/-- How an order is executed. -/
inductive OrderType where
  | market | limit | stop
deriving Repr, DecidableEq

def OrderType.name : OrderType → String
  | market => "market"
  | limit => "limit"
  | stop => "stop"

/-- The state of an order at its venue. -/
inductive OrderStatus where
  | pending | working | partiallyFilled | filled | cancelled | rejected
deriving Repr, DecidableEq

namespace OrderStatus

/-- Every state. -/
def all : List OrderStatus :=
  [pending, working, partiallyFilled, filled, cancelled, rejected]

/-- The name of a state in documents. -/
def name : OrderStatus → String
  | pending => "pending"
  | working => "working"
  | partiallyFilled => "partially_filled"
  | filled => "filled"
  | cancelled => "cancelled"
  | rejected => "rejected"

/-- The name of a state in messages. -/
def title : OrderStatus → String
  | pending => "Pending"
  | working => "Working"
  | partiallyFilled => "PartiallyFilled"
  | filled => "Filled"
  | cancelled => "Cancelled"
  | rejected => "Rejected"

/-- The state with a name. -/
def ofName? (text : String) : Option OrderStatus :=
  all.find? fun status => status.name == text

/-- The order works at the venue or is filled, wholly or in part. -/
def isLive : OrderStatus → Bool
  | working | partiallyFilled | filled => true
  | _ => false

/-- The order can still be cancelled. -/
def isOpen : OrderStatus → Bool
  | pending | working | partiallyFilled => true
  | _ => false

end OrderStatus

/-- What an order is for in its bracket. Targets are counted from zero. -/
inductive OrderRole where
  | entry
  | stop
  | target (index : Nat)
deriving Repr, DecidableEq

/-- The name of a role in messages. -/
def OrderRole.name : OrderRole → String
  | entry => "entry"
  | stop => "stop"
  | target index => "target[" ++ toString index ++ "]"

/-- One order that is to be placed. -/
structure OrderLeg where
  planId : String
  symbol : String
  side : Side
  quantity : Float
  type : OrderType
  role : OrderRole
  limitPrice : Option Float
  stopPrice : Option Float
deriving Repr, DecidableEq

/-- An order at a venue. -/
structure Order where
  id : String
  leg : OrderLeg
  status : OrderStatus
  filledQuantity : Option Float
  filledPrice : Option Float
deriving Repr, DecidableEq

namespace Order

/-- The order that a venue makes of a leg. -/
def ofLeg (id : String) (leg : OrderLeg) (status : OrderStatus) : Order :=
  ⟨id, leg, status, none, none⟩

def symbol (order : Order) : String :=
  order.leg.symbol

/-- The order works at the venue or is filled, wholly or in part. -/
def isLive (order : Order) : Bool :=
  order.status.isLive

/-- The order can still be cancelled. -/
def isOpen (order : Order) : Bool :=
  order.status.isOpen

/-- The order enters a position. -/
def isEntry (order : Order) : Bool :=
  order.leg.role == .entry

end Order

end TradingStrategy

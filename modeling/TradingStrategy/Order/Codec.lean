import TradingStrategy.Json.Value
import TradingStrategy.Order.Bracket

/-!
Orders and resolved plans as JSON values.

Owns: the JSON forms of legs, orders and resolved plans. They are written and never read.
-/

namespace TradingStrategy

/-- A number that may be missing. -/
def Json.ofFloat? : Option Float → Json
  | some value => .float value
  | none => .null

def OrderRole.toJson : OrderRole → Json
  | entry => .string "entry"
  | stop => .string "stop"
  | target index => .object [("target", .object [("index", .int index)])]

def OrderLeg.toJson (leg : OrderLeg) : Json :=
  .object [("planId", .string leg.planId), ("symbol", .string leg.symbol), ("side", .string leg.side.name),
    ("qty", .float leg.quantity), ("orderType", .string leg.type.name), ("role", leg.role.toJson),
    ("limitPrice", Json.ofFloat? leg.limitPrice), ("stopPrice", Json.ofFloat? leg.stopPrice)]

def Order.toJson (order : Order) : Json :=
  .object [("id", .string order.id), ("planId", .string order.leg.planId), ("symbol", .string order.leg.symbol),
    ("side", .string order.leg.side.name), ("qty", .float order.leg.quantity), ("type", .string order.leg.type.name),
    ("role", order.leg.role.toJson), ("status", .string order.status.name),
    ("limitPrice", Json.ofFloat? order.leg.limitPrice), ("stopPrice", Json.ofFloat? order.leg.stopPrice),
    ("filledQty", Json.ofFloat? order.filledQuantity), ("filledPrice", Json.ofFloat? order.filledPrice)]

def ResolvedTarget.toJson (target : ResolvedTarget) : Json :=
  .object [("price", .float target.price), ("ratioOfPosition", .float target.ratio)]

def ResolvedPlan.toJson (plan : ResolvedPlan) : Json :=
  .object [("planId", .string plan.planId), ("symbol", .string plan.symbol), ("side", .string plan.side.name),
    ("entryLow", .float plan.entryLow), ("entryHigh", .float plan.entryHigh), ("qty", .float plan.quantity),
    ("stop", .float plan.stop), ("targets", .array (plan.targets.map ResolvedTarget.toJson))]

end TradingStrategy

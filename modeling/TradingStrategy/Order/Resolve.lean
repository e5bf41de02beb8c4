import TradingStrategy.Expr.Eval
import TradingStrategy.Order.Bracket
import TradingStrategy.Strategy.Basic

/-!
Resolving order plans.

Owns: the evaluation of the prices of a plan over the history, in an order in which later prices can read earlier ones:
the zone, the stop, the targets. A plan whose prices are all fixed is resolved without a history.
-/

namespace TradingStrategy

/-- The prices of a plan. -/
inductive PriceField where
  | zoneLow | zoneHigh | stop
  | target (index : Nat)
deriving Repr, DecidableEq

/-- The name of a price in messages. -/
def PriceField.name : PriceField → String
  | zoneLow => "entryZone[0]"
  | zoneHigh => "entryZone[1]"
  | stop => "stopPrice"
  | target index => "targets[" ++ toString index ++ "].price"

/-- Why a plan is not resolved. -/
inductive ResolveError where
  | evaluation (error : EvalError)
  | notFinite (planId : String) (field : PriceField) (value : Float)
  | zone (planId : String) (low high : Float)
deriving Repr

def ResolveError.message : ResolveError → String
  | evaluation error => error.message
  | notFinite planId field value =>
      "invalid order plan '" ++ planId ++ "': " ++ field.name ++ " resolved to " ++ Number.plain value
  | zone planId low high => "invalid order plan '" ++ planId ++ "': " ++ zoneMessage low high

/-- The value of a price, without a look at its size. -/
def PriceSlot.value (slot : PriceSlot) (context : EvalContext) : Except EvalError Float :=
  match slot with
  | literal value => .ok value
  | expression price _ _ => evaluateNumber context price

namespace OrderPlan

/-- Resolves one price; it has to be finite. -/
def resolveSlot (plan : OrderPlan) (field : PriceField) (slot : PriceSlot) (context : EvalContext) :
    Except ResolveError Float :=
  match slot.value context with
  | .error error => .error (.evaluation error)
  | .ok value => if value.isFinite then .ok value else .error (.notFinite plan.id field value)

/-- Resolves targets, from a position on. -/
def resolveTargets (plan : OrderPlan) (context : EvalContext) (index : Nat) :
    List Target → Except ResolveError (List ResolvedTarget)
  | [] => .ok []
  | target :: rest => do
      let price ← plan.resolveSlot (.target index) target.price context
      let others ← resolveTargets plan context (index + 1) rest
      return ⟨price, target.ratio⟩ :: others

/-- Resolves a plan over the history. -/
def resolve (plan : OrderPlan) (history : History) : Except ResolveError ResolvedPlan := do
  let low ← plan.resolveSlot .zoneLow plan.zoneLow (.ofHistory history)
  let high ← plan.resolveSlot .zoneHigh plan.zoneHigh (.ofHistory history)
  if high < low then .error (.zone plan.id low high)
  let zone := [("eL", low), ("eH", high), ("entry", (low + high) / 2.0)]
  let stop ← plan.resolveSlot .stop plan.stop ⟨history, zone⟩
  let targets ← plan.resolveTargets ⟨history, zone ++ [("stop", stop)]⟩ 0 plan.targets
  return {
    planId := plan.id
    symbol := plan.symbol
    side := plan.side
    entryLow := low
    entryHigh := high
    quantity := plan.quantity
    stop := stop
    targets := targets }

/-- The resolved form of a plan whose prices are all fixed. -/
def literal? (plan : OrderPlan) : Option ResolvedPlan := do
  let targets ← plan.targets.mapM fun target => target.price.literal?.map fun price => ⟨price, target.ratio⟩
  return {
    planId := plan.id
    symbol := plan.symbol
    side := plan.side
    entryLow := ← plan.zoneLow.literal?
    entryHigh := ← plan.zoneHigh.literal?
    quantity := plan.quantity
    stop := ← plan.stop.literal?
    targets := targets }

end OrderPlan

end TradingStrategy

import TradingStrategy.Feature.Basic
import TradingStrategy.Number.Notation
import TradingStrategy.Order.Basic

/-!
Resolved plans and their brackets.

Owns:
- plans whose prices are numbers, and the runtime variables that they give to expressions;
- the structural check of a plan;
- the legs of a plan: one entry, one stop at the full quantity, and one leg for each target at its part of the
  quantity. The legs are sent in this order.
-/

namespace TradingStrategy

/-- A target whose price is a number. -/
structure ResolvedTarget where
  price : Float
  ratio : Float
deriving Repr, DecidableEq

/-- An order plan whose prices are numbers. -/
structure ResolvedPlan where
  planId : String
  symbol : String
  side : Side
  entryLow : Float
  entryHigh : Float
  quantity : Float
  stop : Float
  targets : List ResolvedTarget
deriving Repr, DecidableEq

/-- Why a venue cannot take a plan. -/
inductive PlanFault where
  | quantity (value : Float)
  | price (value : Float)
  | zone (low high : Float)
  | buyStop (stop low : Float)
  | sellStop (stop high : Float)
  | noTarget
  | ratios (sum : Float)
deriving Repr, DecidableEq

/-- The wording for a quantity that is not above zero. -/
def quantityMessage (value : Float) : String :=
  "quantity " ++ Number.plain value ++ " must be > 0"

/-- The wording for an entry zone that is upside down. -/
def zoneMessage (low high : Float) : String :=
  "entry zone low " ++ Number.plain low ++ " above high " ++ Number.plain high

def PlanFault.message : PlanFault → String
  | quantity value => quantityMessage value
  | price value => "price " ++ Number.plain value ++ " must be a positive number"
  | zone low high => zoneMessage low high
  | buyStop stop low =>
      "buy stop " ++ Number.plain stop ++ " must be below entry zone low " ++ Number.plain low
  | sellStop stop high =>
      "sell stop " ++ Number.plain stop ++ " must be above entry zone high " ++ Number.plain high
  | noTarget => "at least one target is required"
  | ratios sum => "target ratios sum to " ++ Number.plain sum ++ ", must be <= 1"

/-- A number is finite and above zero. -/
def isPositive (x : Float) : Bool :=
  x.isFinite && 0.0 < x

/-- The largest sum of target ratios: the whole position, and a little for rounding. -/
def ratioLimit : Float :=
  1.0 + 1e-9

namespace ResolvedPlan

/-- The middle of the entry zone. -/
def entry (plan : ResolvedPlan) : Float :=
  (plan.entryLow + plan.entryHigh) / 2.0

/-- The price of the first target. -/
def firstTarget? (plan : ResolvedPlan) : Option Float :=
  plan.targets.head?.map ResolvedTarget.price

/-- The runtime variables of a plan. -/
def bindings (plan : ResolvedPlan) : List (String × Float) :=
  [("entry", plan.entry), ("stop", plan.stop), ("eL", plan.entryLow), ("eH", plan.entryHigh)] ++
    plan.firstTarget?.toList.map fun price => ("t1", price)

def prices (plan : ResolvedPlan) : List Float :=
  [plan.entryLow, plan.entryHigh, plan.stop] ++ plan.targets.map ResolvedTarget.price

/-- The sum of the target ratios. -/
def ratioSum (plan : ResolvedPlan) : Float :=
  sumOf (plan.targets.map ResolvedTarget.ratio)

/-- The stop lies inside or beyond the wrong end of the entry zone. -/
def stopFault? (plan : ResolvedPlan) : Option PlanFault :=
  match plan.side with
  | .buy => if plan.entryLow ≤ plan.stop then some (.buyStop plan.stop plan.entryLow) else none
  | .sell => if plan.stop ≤ plan.entryHigh then some (.sellStop plan.stop plan.entryHigh) else none

/-- The first thing that is wrong with a plan. -/
def fault? (plan : ResolvedPlan) : Option PlanFault :=
  if !isPositive plan.quantity then some (.quantity plan.quantity)
  else match plan.prices.find? fun price => !isPositive price with
    | some price => some (.price price)
    | none =>
        if plan.entryHigh < plan.entryLow then some (.zone plan.entryLow plan.entryHigh)
        else match plan.stopFault? with
          | some fault => some fault
          | none =>
              if plan.targets.isEmpty then some .noTarget
              else if ratioLimit < plan.ratioSum then some (.ratios plan.ratioSum)
              else none

def leg (plan : ResolvedPlan) (side : Side) (quantity : Float) (type : OrderType) (role : OrderRole)
    (limitPrice stopPrice : Option Float) : OrderLeg :=
  ⟨plan.planId, plan.symbol, side, quantity, type, role, limitPrice, stopPrice⟩

/-- The legs of targets, from a position on. A target without quantity has none. -/
def targetLegs (plan : ResolvedPlan) (index : Nat) : List ResolvedTarget → List OrderLeg
  | [] => []
  | target :: rest =>
      let quantity := plan.quantity * target.ratio
      if quantity ≤ 0.0 then targetLegs plan (index + 1) rest
      else plan.leg plan.side.opposite quantity .limit (.target index) (some target.price) none ::
        targetLegs plan (index + 1) rest

/-- The legs of a plan, if nothing is wrong with it. -/
def bracket (plan : ResolvedPlan) : Except PlanFault (List OrderLeg) :=
  match plan.fault? with
  | some fault => .error fault
  | none => .ok (
      plan.leg plan.side plan.quantity .limit .entry (some plan.entry) none ::
      plan.leg plan.side.opposite plan.quantity .stop .stop none (some plan.stop) ::
      plan.targetLegs 0 plan.targets)

end ResolvedPlan

end TradingStrategy

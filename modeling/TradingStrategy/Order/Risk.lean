import TradingStrategy.Order.Bracket

/-!
The risk of a plan.

Owns: the assessment of a plan at its worst fill, the gate that refuses a plan with too much risk or none, and the label
of a ratio of reward to risk.

The worst fill is the top of the entry zone for a buy and its bottom for a sell.
-/

namespace TradingStrategy

/-- What a plan risks and what it can gain, from the worst fill on. -/
structure RiskAssessment where
  /-- The distance from the worst fill to the stop. -/
  perUnit : Float
  /-- The loss of the whole position. -/
  worst : Float
  /-- The distance from the worst fill to the first target. -/
  reward : Float
  /-- The reward at the first target in units of the risk. -/
  ratio : Float
  /-- The reward over all targets, weighted by their parts, in units of the risk. -/
  weightedRatio : Float
deriving Repr, DecidableEq

/-- Why the gate refuses a plan. -/
inductive RiskRefusal where
  | noRisk (perUnit : Float)
  | aboveLimit (risk limit : Float)
deriving Repr, DecidableEq

def RiskRefusal.message : RiskRefusal → String
  | noRisk perUnit => "stop leaves non-positive risk per unit (" ++ Number.plain perUnit ++ ")"
  | aboveLimit risk limit =>
      "worst-case risk " ++ Number.fixed 2 risk ++ " exceeds max risk per trade " ++ Number.fixed 2 limit

/-- How far a price has moved in favour of a side. -/
def Side.gain (side : Side) (start price : Float) : Float :=
  match side with
  | .buy => price - start
  | .sell => start - price

namespace ResolvedPlan

/-- The least favourable fill. -/
def worstFill (plan : ResolvedPlan) : Float :=
  match plan.side with
  | .buy => plan.entryHigh
  | .sell => plan.entryLow

/-- The reward averaged over the targets by their parts. -/
def weightedReward (plan : ResolvedPlan) : Float :=
  if 0.0 < plan.ratioSum then
    sumOf (plan.targets.map fun target => plan.side.gain plan.worstFill target.price * target.ratio) / plan.ratioSum
  else Number.nan

/-- The assessment of a plan. -/
def assess (plan : ResolvedPlan) : RiskAssessment :=
  let perUnit := -plan.side.gain plan.worstFill plan.stop
  let reward := match plan.firstTarget? with
    | some price => plan.side.gain plan.worstFill price
    | none => Number.nan
  { perUnit := perUnit
    worst := perUnit * plan.quantity
    reward := reward
    ratio := reward / perUnit
    weightedRatio := plan.weightedReward / perUnit }

/-- Lets a plan pass whose risk is above zero and not above the limit. -/
def gate (plan : ResolvedPlan) (limit : Float) : Except RiskRefusal RiskAssessment :=
  let assessment := plan.assess
  if !(0.0 < assessment.perUnit) then .error (.noRisk assessment.perUnit)
  else if limit < assessment.worst then .error (.aboveLimit assessment.worst limit)
  else .ok assessment

end ResolvedPlan

/-- The label of a ratio of at least one: its whole part. -/
def ratioLabel? (ratio : Float) : Option String :=
  if ratio.isFinite && 1.0 ≤ ratio then some ("1:" ++ toString (Number.toNatClamped ratio)) else none

end TradingStrategy

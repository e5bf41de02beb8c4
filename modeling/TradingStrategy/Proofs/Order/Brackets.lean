import TradingStrategy.Proofs.Number.Monotone
import TradingStrategy.Proofs.Order.Legs

/-!
Brackets leg by leg.

Owns:
- `ResolvedPlan.IsAccepted`: what the structural check makes sure of;
- `IsBracket`: the legs of a plan, their order, their prices and their quantities;
- `accepted_bracket`: every bracket of an accepted plan is one.

The check looks at every price that a plan has, but its entry is computed only afterwards: the sum of two positive prices
can be too large for a double, and then the entry has no finite price. The check looks at the sum of the ratios, but not
at each of them: a ratio below zero makes room for another one above the whole position.
-/

namespace TradingStrategy

/-! ### Accepted plans -/

namespace ResolvedPlan

variable {plan : ResolvedPlan}

/-- What the structural check makes sure of. -/
structure IsAccepted (plan : ResolvedPlan) : Prop where
  quantity : isPositive plan.quantity = true
  prices : ∀ price ∈ plan.prices, isPositive price = true
  inOrder : plan.entryLow ≤ plan.entryHigh
  stop : plan.stopFault? = none
  hasTarget : plan.targets ≠ []
  ratios : ¬ratioLimit < plan.ratioSum

theorem accepted_of_faultless (faultless : plan.fault? = none) : plan.IsAccepted := by
  unfold fault? at faultless
  split at faultless
  · contradiction
  next quantity =>
  split at faultless
  · contradiction
  next noPrice =>
  split at faultless
  · contradiction
  next inOrder =>
  split at faultless
  · contradiction
  next stop =>
  split at faultless
  · contradiction
  next hasTarget =>
  split at faultless
  · contradiction
  next ratios =>
  have positive : ∀ price ∈ plan.prices, isPositive price = true := by
    simpa using List.find?_eq_none.mp noPrice
  have finite {price : Float} (member : price ∈ plan.prices) : price.isFinite = true :=
    (Bool.and_eq_true_iff.mp (positive price member)).1
  refine ⟨by simpa using quantity, positive, ?_, stop, by simpa using hasTarget, ratios⟩
  exact le_of_finite_of_not_lt (finite (by simp [prices])) (finite (by simp [prices])) inOrder

/-! ### Target legs -/

/-- The leg of a target. -/
def targetLeg (plan : ResolvedPlan) (target : ResolvedTarget × ℕ) : OrderLeg :=
  plan.leg plan.side.opposite (plan.quantity * target.1.ratio) .limit (.target target.2) (some target.1.price) none

/-- The targets for which something is left of the position, with their indices. -/
def fundedTargets (plan : ResolvedPlan) : List (ResolvedTarget × ℕ) :=
  plan.targets.zipIdx.filter fun target => !decide (plan.quantity * target.1.ratio ≤ 0.0)

theorem targetLegs_eq (targets : List ResolvedTarget) (index : ℕ) :
    plan.targetLegs index targets =
      ((targets.zipIdx index).filter fun target => !decide (plan.quantity * target.1.ratio ≤ 0.0)).map plan.targetLeg := by
  induction targets generalizing index with
  | nil => rfl
  | cons first rest inductionHypothesis =>
    rw [targetLegs, List.zipIdx_cons, inductionHypothesis]
    by_cases nothing : plan.quantity * first.ratio ≤ 0.0
    · simp [nothing]
    · simp [nothing, targetLeg]

theorem fundedTargets_increasing : (plan.fundedTargets.map Prod.snd).Pairwise (· < ·) := by
  have all : (plan.targets.zipIdx.map Prod.snd).Pairwise (· < ·) := by
    rw [List.zipIdx_map_snd]
    exact List.pairwise_lt_range'
  exact all.sublist (List.filter_sublist.map Prod.snd)

theorem fundedTargets_spec {target : ResolvedTarget × ℕ} (member : target ∈ plan.fundedTargets) :
    plan.targets[target.2]? = some target.1 ∧ ¬plan.quantity * target.1.ratio ≤ 0.0 := by
  obtain ⟨among, left⟩ := List.mem_filter.mp member
  exact ⟨List.mem_zipIdx_iff_getElem?.mp among, by simpa using left⟩

/-! ### Quantities -/

/-- What is left of a position for a target whose ratio is not below zero is above zero, and no more than what the whole
sum of the ratios allows. -/
theorem IsAccepted.part_within (accepted : plan.IsAccepted) (nonneg : ∀ target ∈ plan.targets, 0.0 ≤ target.ratio)
    {target : ResolvedTarget} (member : target ∈ plan.targets) (left : ¬plan.quantity * target.ratio ≤ 0.0) :
    0.0 < plan.quantity * target.ratio ∧ plan.quantity * target.ratio ≤ plan.quantity * ratioLimit := by
  have ratioNonneg := nonneg target member
  have limitNonneg : 0.0 ≤ ratioLimit := by decide
  have productNonneg := Number.nonneg_mul accepted.quantity ratioNonneg
  have ratiosNonneg : ∀ ratio ∈ plan.targets.map ResolvedTarget.ratio, 0.0 ≤ ratio := by
    intro ratio among
    obtain ⟨other, isTarget, rfl⟩ := List.mem_map.mp among
    exact nonneg other isTarget
  obtain ⟨sumNonneg, belowSum⟩ := Number.le_sumOf ratiosNonneg
  have belowLimit : plan.ratioSum ≤ ratioLimit :=
    (Number.le_iff_not_lt (Number.isNumber_of_nonneg sumNonneg) (Number.isNumber_of_nonneg limitNonneg)).mpr
      accepted.ratios
  constructor
  · exact (Number.lt_iff_not_le Number.isNumber_zero (Number.isNumber_of_nonneg productNonneg)).mpr left
  · exact Number.mul_le_mul_left accepted.quantity ratioNonneg limitNonneg
      (Number.le_trans_of_nonneg ratioNonneg sumNonneg limitNonneg
        (belowSum target.ratio (List.mem_map_of_mem member)) belowLimit)

/-- The whole position keeps within the same bound. -/
theorem IsAccepted.whole_within (accepted : plan.IsAccepted) : plan.quantity ≤ plan.quantity * ratioLimit := by
  have atMost := Number.mul_le_mul_left accepted.quantity (by decide : (0.0 : Float) ≤ 1.0) (by decide)
    (by decide : (1.0 : Float) ≤ ratioLimit)
  rwa [Number.mul_one_of_positive accepted.quantity] at atMost

/-! ### Legs -/

/-- The legs of a plan: one for the entry, one for the stop and those for targets. -/
structure IsBracket (plan : ResolvedPlan) (entryLeg stopLeg : OrderLeg) (exits : List OrderLeg) : Prop where
  entry : entryLeg = plan.leg plan.side plan.quantity .limit .entry entryLeg.limitPrice none
  stop : stopLeg = plan.leg plan.side.opposite plan.quantity .stop .stop none stopLeg.stopPrice
  targets : ∀ leg ∈ exits, ∃ index target, plan.targets[index]? = some target ∧
    leg = plan.leg plan.side.opposite (plan.quantity * target.ratio) .limit (.target index) leg.limitPrice none
  /-- Targets come in the order of the plan, each at most once. -/
  increasing : ∃ indices : List ℕ, exits.map OrderLeg.role = indices.map .target ∧ indices.Pairwise (· < ·)
  prices : ∀ leg ∈ stopLeg :: exits, ∃ price, (leg.limitPrice = some price ∨ leg.stopPrice = some price) ∧
    isPositive price = true
  /-- The entry is in the zone, if the ends of the zone can be added up. -/
  inZone : ∃ price, entryLeg.limitPrice = some price ∧
    (isPositive price = true ↔ (plan.entryLow + plan.entryHigh).isFinite = true) ∧
    (isPositive price = true → plan.entryLow ≤ price ∧ price ≤ plan.entryHigh)
  /-- No leg is larger than the position, but for rounding, if no ratio is below zero. -/
  quantities : (∀ target ∈ plan.targets, 0.0 ≤ target.ratio) → ∀ leg ∈ entryLeg :: stopLeg :: exits,
    0.0 < leg.quantity ∧ leg.quantity ≤ plan.quantity * ratioLimit
  /-- All quantities are finite, if all ratios are parts. -/
  parts : (∀ target ∈ plan.targets, IsPart target.ratio) → ∀ leg ∈ entryLeg :: stopLeg :: exits,
    isPositive leg.quantity = true

theorem IsAccepted.entry_inZone (accepted : plan.IsAccepted) :
    (isPositive plan.entry = true ↔ (plan.entryLow + plan.entryHigh).isFinite = true) ∧
      (isPositive plan.entry = true → plan.entryLow ≤ plan.entry ∧ plan.entry ≤ plan.entryHigh) := by
  obtain ⟨low, high, _⟩ := forall_prices.mp accepted.prices
  have within := Number.midpoint_within low high accepted.inOrder
  have finite : isPositive plan.entry = true → (plan.entryLow + plan.entryHigh).isFinite = true := by
    intro positive
    by_contra overflow
    have infinite := Number.midpoint_infinite low high (Bool.eq_false_iff.mpr overflow)
    have entryFinite : plan.entry.isFinite = true := (Bool.and_eq_true_iff.mp positive).1
    rw [entry, infinite] at entryFinite
    contradiction
  exact ⟨⟨finite, fun sum => (within sum).1⟩, fun positive => (within (finite positive)).2⟩

end ResolvedPlan

/-- A plan that the structural check accepts is expanded into its entry, its stop and its targets, whose prices and
quantities are in order as far as the check makes sure of it. -/
theorem accepted_bracket {plan : ResolvedPlan} (faultless : plan.fault? = none) :
    ∃ entryLeg stopLeg exits, plan.bracket = .ok (entryLeg :: stopLeg :: exits) ∧
      plan.IsBracket entryLeg stopLeg exits := by
  have accepted := ResolvedPlan.accepted_of_faultless faultless
  have expanded : plan.bracket = .ok (plan.leg plan.side plan.quantity .limit .entry (some plan.entry) none ::
      plan.leg plan.side.opposite plan.quantity .stop .stop none (some plan.stop) ::
      plan.fundedTargets.map plan.targetLeg) := by
    rw [ResolvedPlan.bracket, faultless, ResolvedPlan.targetLegs_eq]
    rfl
  have positive := ResolvedPlan.bracket_positive expanded
  refine ⟨_, _, _, expanded, ?_⟩
  have ofTarget : ∀ leg ∈ plan.fundedTargets.map plan.targetLeg, ∃ target index,
      plan.targets[index]? = some target ∧ ¬plan.quantity * target.ratio ≤ 0.0 ∧ leg = plan.targetLeg (target, index) := by
    intro leg member
    obtain ⟨⟨target, index⟩, funded, rfl⟩ := List.mem_map.mp member
    obtain ⟨isTarget, left⟩ := ResolvedPlan.fundedTargets_spec funded
    exact ⟨target, index, isTarget, left, rfl⟩
  constructor
  case entry | stop => rfl
  case targets =>
    intro leg member
    obtain ⟨target, index, isTarget, _, rfl⟩ := ofTarget leg member
    exact ⟨index, target, isTarget, rfl⟩
  case increasing =>
    refine ⟨plan.fundedTargets.map Prod.snd, ?_, ResolvedPlan.fundedTargets_increasing⟩
    rw [List.map_map, List.map_map]
    rfl
  case prices =>
    obtain ⟨_, _, stopPositive, targetPositive⟩ := ResolvedPlan.forall_prices.mp accepted.prices
    intro leg member
    rcases List.mem_cons.mp member with rfl | member
    · exact ⟨plan.stop, .inr rfl, stopPositive⟩
    · obtain ⟨target, index, isTarget, _, rfl⟩ := ofTarget leg member
      exact ⟨target.price, .inl rfl, targetPositive target (List.mem_of_getElem? isTarget)⟩
  case inZone => exact ⟨plan.entry, rfl, accepted.entry_inZone⟩
  case quantities =>
    intro nonneg leg member
    have whole : 0.0 < plan.quantity := of_decide_eq_true (Bool.and_eq_true_iff.mp accepted.quantity).2
    rcases List.mem_cons.mp member with rfl | member
    · exact ⟨whole, accepted.whole_within⟩
    rcases List.mem_cons.mp member with rfl | member
    · exact ⟨whole, accepted.whole_within⟩
    · obtain ⟨target, index, isTarget, left, rfl⟩ := ofTarget leg member
      exact accepted.part_within nonneg (List.mem_of_getElem? isTarget) left
  case parts => exact positive

/-- A plan to buy ten. -/
def buyTen (low high stop : Float) (targets : List ResolvedTarget) : ResolvedPlan :=
  ⟨"primary", "SPY", .buy, low, high, 10, stop, targets⟩

/-- A leg of a plan passes a test. -/
def ResolvedPlan.hasLeg (plan : ResolvedPlan) (test : OrderLeg → Bool) : Bool :=
  plan.bracket.toOption.any fun legs => legs.any test

theorem ResolvedPlan.exists_leg {plan : ResolvedPlan} {test : OrderLeg → Bool} (has : plan.hasLeg test = true) :
    ∃ legs, plan.bracket = .ok legs ∧ ∃ leg ∈ legs, test leg = true := by
  obtain ⟨legs, bracketed, passed⟩ := ok_of_any has
  exact ⟨legs, bracketed, List.any_eq_true.mp passed⟩

set_option maxRecDepth 100000 in
/-- In a zone whose ends add up to more than the largest double, the entry has no finite price. Beside a ratio below
zero, a target sells twice the position. -/
theorem accepted_legs_out_of_bounds :
    (∃ legs, (buyTen 1e308 1.2e308 9e307 [⟨1.5e308, 1⟩]).bracket = .ok legs ∧
      ∃ leg ∈ legs, leg.role = .entry ∧ leg.limitPrice.any Float.isFinite = false) ∧
    ∃ legs, (buyTen 100 101 95 [⟨125, -1⟩, ⟨130, 2⟩]).bracket = .ok legs ∧
      ∃ leg ∈ legs, leg.quantity = 20 ∧ ¬leg.quantity ≤ 10 * ratioLimit := by
  have overflow : (buyTen 1e308 1.2e308 9e307 [⟨1.5e308, 1⟩]).hasLeg (fun leg =>
      decide (leg.role = .entry ∧ leg.limitPrice.any Float.isFinite = false)) = true := by decide +kernel
  have oversized : (buyTen 100 101 95 [⟨125, -1⟩, ⟨130, 2⟩]).hasLeg (fun leg =>
      decide (leg.quantity = 20 ∧ ¬leg.quantity ≤ 10 * ratioLimit)) = true := by decide +kernel
  obtain ⟨legs, bracketed, leg, member, infinite⟩ := ResolvedPlan.exists_leg overflow
  obtain ⟨others, expanded, other, among, larger⟩ := ResolvedPlan.exists_leg oversized
  exact ⟨⟨legs, bracketed, leg, member, of_decide_eq_true infinite⟩,
    others, expanded, other, among, of_decide_eq_true larger⟩

set_option maxRecDepth 100000 in
/-- Of three targets, the second one gets nothing. All legs keep within the position, and the entry within the zone. -/
theorem accepted_bracket_of_three :
    ∃ entryLeg stopLeg exits,
      (buyTen 100 101 95 [⟨125, 0.5⟩, ⟨130, 0⟩, ⟨140, 0.25⟩]).bracket = .ok (entryLeg :: stopLeg :: exits) ∧
      (∀ leg ∈ entryLeg :: stopLeg :: exits, isPositive leg.quantity = true ∧ leg.quantity ≤ 10 * ratioLimit) ∧
      ∃ price, entryLeg.limitPrice = some price ∧ 100 ≤ price ∧ price ≤ 101 := by
  have parts : ∀ target ∈ (buyTen 100 101 95 [⟨125, 0.5⟩, ⟨130, 0⟩, ⟨140, 0.25⟩]).targets, IsPart target.ratio := by
    show ∀ target ∈ [_, _, _], 0.0 ≤ ResolvedTarget.ratio target ∧ target.ratio ≤ 1.0
    decide +kernel
  have finite : ((100 : Float) + 101).isFinite = true := by decide +kernel
  obtain ⟨entryLeg, stopLeg, exits, bracketed, bracket⟩ := accepted_bracket
    (by decide +kernel : (buyTen 100 101 95 [⟨125, 0.5⟩, ⟨130, 0⟩, ⟨140, 0.25⟩]).fault? = none)
  obtain ⟨price, isPrice, positive, inZone⟩ := bracket.inZone
  refine ⟨entryLeg, stopLeg, exits, bracketed, ?_, price, isPrice, inZone (positive.mpr finite)⟩
  intro leg member
  have within := bracket.quantities (fun target isTarget => (parts target isTarget).1) leg member
  exact ⟨bracket.parts parts leg member, within.2⟩

end TradingStrategy

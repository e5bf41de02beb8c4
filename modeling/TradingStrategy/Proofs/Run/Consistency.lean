import TradingStrategy.Proofs.Order.Prices
import TradingStrategy.Proofs.Run.Waiting
import TradingStrategy.Proofs.Venue.Paper

/-!
What the fields of a state say of each other.

Owns:
- venues that accept legs as they were sent, and the legs of a submission to one of them;
- `Engine.Consistent`: timers, plan, variables and orders in each of the stages;
- `compiled_states_consistent`: after every round at the paper venue and after every round of a dry run, the state of a
  compiled strategy is consistent.
-/

namespace TradingStrategy

/-! ### Legs as they were sent -/

namespace Venue

variable {σ : Type} {venue : Venue σ} {environment : Environment}

/-- What a venue accepts is what was sent to it. -/
def AcceptsAsSent (venue : Venue σ) (environment : Environment) : Prop :=
  ∀ leg world order, (venue.placeOne environment leg world).1 = .ok order → order.leg = leg

theorem dryOrders_legs (position : Nat) (legs : List OrderLeg) : (dryOrders position legs).map Order.leg = legs := by
  induction legs generalizing position with
  | nil => rfl
  | cons leg rest inductionHypothesis =>
    rw [dryOrders, List.map_cons, inductionHypothesis]
    rfl

theorem placeAll_legs (asSent : venue.AcceptsAsSent environment) {legs : List OrderLeg} {accepted orders : List Order}
    {world : World σ} (placed : (venue.placeAll environment accepted legs world).1 = .ok orders) :
    orders.map Order.leg = accepted.reverse.map Order.leg ++ legs := by
  induction legs generalizing accepted world with
  | nil =>
    rw [← Except.ok.inj placed, List.append_nil]
  | cons leg rest inductionHypothesis =>
    rw [placeAll] at placed
    split at placed
    · next order after answered =>
      have same : order.leg = leg := asSent leg world order (by rw [answered])
      rw [inductionHypothesis placed, List.reverse_cons, List.map_append, List.append_assoc, List.map_singleton, same]
      rfl
    · contradiction

/-- A submission that succeeds has an order for every leg of the bracket. -/
theorem submit_legs (asSent : environment.dryRun = false → venue.AcceptsAsSent environment) {plan : ResolvedPlan}
    {world : World σ} {orders : List Order} (answered : (venue.submit environment plan world).1 = .ok orders) :
    plan.bracket = .ok (orders.map Order.leg) := by
  unfold submit at answered
  split at answered
  · contradiction
  · next legs bracketed =>
    rw [bracketed]
    split at answered
    · rw [← Except.ok.inj answered, dryOrders_legs]
    · next live => rw [placeAll_legs (asSent (by simpa using live)) answered, List.reverse_nil]; rfl

end Venue

theorem PaperScript.acceptsAsSent (script : PaperScript) (environment : Environment) :
    script.venue.AcceptsAsSent environment := by
  intro leg world order answered
  rcases script.placeOne_cases environment leg world with ⟨after, taken, _⟩ | ⟨error, after, refused, _⟩
  · rw [taken] at answered
    rw [← Except.ok.inj answered]
    rfl
  · rw [refused] at answered
    contradiction

/-! ### Consistent states -/

namespace Engine

variable {σ : Type} {engine : Engine} {blueprint : Blueprint} {venue : Venue σ} {rounds : List (Round σ)}

/-- The plan of a strategy that is not idle: its first order plan, resolved over the history of the round on which it
has armed. It gives the runtime variables. -/
structure HoldsPlan (engine : Engine) (venue : Venue σ) (rounds : List (Round σ)) (plan : ResolvedPlan) : Prop where
  frozen : (engine.stateAfter venue rounds).frozen = some plan
  bindings : (engine.stateAfter venue rounds).bindings = plan.bindings
  resolved : ∃ first front arming count, engine.strategy.orderPlans.head? = some first ∧
    Since engine venue (.idle, .armed) plannedStages front arming rounds count ∧
    first.resolve (engine.stateAfter venue (front ++ [arming])).history = .ok plan
  finite : ∀ price ∈ plan.prices, price.isFinite = true
  zone : plan.entryLow ≤ plan.entryHigh

/-- There are orders, and all of them carry the id and the symbol of a plan. -/
structure HoldsOrders (state : EngineState) (plan : ResolvedPlan) : Prop where
  nonempty : state.orders ≠ []
  carried : ∀ order ∈ state.orders, order.leg.planId = plan.planId ∧ order.leg.symbol = plan.symbol

/-- What the fields of a state say of each other, stage by stage. Bars are counted where they are processed. -/
inductive Consistent (engine : Engine) (venue : Venue σ) (rounds : List (Round σ)) : Prop where
  | idle (stage : (engine.stateAfter venue rounds).stage = .idle)
      (armTimer : (engine.stateAfter venue rounds).armTimer = none)
      (entryTimer : (engine.stateAfter venue rounds).entryTimer = none)
      (frozen : (engine.stateAfter venue rounds).frozen = none)
      (bindings : (engine.stateAfter venue rounds).bindings = [])
      (orders : (engine.stateAfter venue rounds).orders = [])
  /-- The arm timer tells how many bars are left since the strategy armed. -/
  | armed (plan : ResolvedPlan) (front : List (Round σ)) (arming : Round σ) (count : Nat)
      (stage : (engine.stateAfter venue rounds).stage = .armed) (holdsPlan : HoldsPlan engine venue rounds plan)
      (since : Since engine venue (.idle, .armed) [.armed] front arming rounds count)
      (armTimer : (engine.stateAfter venue rounds).armTimer = some (engine.patience - count))
      (entryTimer : (engine.stateAfter venue rounds).entryTimer = none)
      (orders : (engine.stateAfter venue rounds).orders = [])
  /-- The entry timer tells how many bars are left since the strategy was placed, and then it is gone. The log has one
  entry about timers more than when the strategy was placed, if the patience has passed or passes with the next bar. -/
  | placed (plan : ResolvedPlan) (front : List (Round σ)) (placing : Round σ) (count : Nat)
      (stage : (engine.stateAfter venue rounds).stage = .placed) (holdsPlan : HoldsPlan engine venue rounds plan)
      (holdsOrders : HoldsOrders (engine.stateAfter venue rounds) plan)
      (since : Since engine venue (.armed, .placed) [.placed] front placing rounds count)
      (armTimer : (engine.stateAfter venue rounds).armTimer = none)
      (entryTimer : (engine.stateAfter venue rounds).entryTimer =
        if count < engine.patience then some (engine.patience - count) else none)
      (written : timerCount (engine.stateAfter venue rounds).log =
        timerCount (engine.stateAfter venue (front ++ [placing])).log + if engine.patience ≤ count then 1 else 0)
      (next : ∀ round, (engine.turnIn venue rounds round).isProcessed = true →
        timerCount (engine.stateAfter venue (rounds ++ [round])).log =
          timerCount (engine.stateAfter venue (front ++ [placing])).log +
            if engine.patience ≤ count + 1 then 1 else 0)
  | settled (plan : ResolvedPlan) (stage : (engine.stateAfter venue rounds).stage ∈ [Stage.managing, .exited])
      (holdsPlan : HoldsPlan engine venue rounds plan)
      (holdsOrders : HoldsOrders (engine.stateAfter venue rounds) plan)
      (armTimer : (engine.stateAfter venue rounds).armTimer = none)
      (entryTimer : (engine.stateAfter venue rounds).entryTimer = none)

theorem holdsPlan (follows : engine.strategy.Follows blueprint)
    (first : engine.strategy.orderPlans.head? = some blueprint.plan)
    (planned : (engine.stateAfter venue rounds).stage ≠ .idle) : ∃ plan, HoldsPlan engine venue rounds plan := by
  obtain ⟨front, arming, count, plan, since, resolved, frozen⟩ := frozen_since follows planned
  obtain ⟨finite, zone⟩ := OrderPlan.resolve_prices resolved
  have bindings : (engine.stateAfter venue rounds).bindings = plan.bindings := by
    rw [(stateAfter_holds follows venue rounds).bound, frozen]
    rfl
  exact ⟨plan, frozen, bindings, ⟨blueprint.plan, front, arming, count, first, since, resolved⟩, finite, zone⟩

theorem holdsOrders (follows : engine.strategy.Follows blueprint)
    (asSent : engine.options.environment.dryRun = false → venue.AcceptsAsSent engine.options.environment)
    (submitted : (engine.stateAfter venue rounds).stage ∈ submittedStages) {plan : ResolvedPlan}
    (frozen : (engine.stateAfter venue rounds).frozen = some plan) :
    HoldsOrders (engine.stateAfter venue rounds) plan := by
  obtain ⟨front, placing, count, held, since, isFrozen, answered⟩ := orders_since follows submitted
  obtain rfl := Option.some.inj (isFrozen.symm.trans frozen)
  obtain ⟨nonempty, carried⟩ := ResolvedPlan.bracket_carries (Venue.submit_legs asSent answered)
  constructor
  · intro none
    rw [none] at nonempty
    exact nonempty rfl
  · intro order member
    exact carried order.leg (List.mem_map_of_mem member)

theorem consistent (follows : engine.strategy.Follows blueprint)
    (first : engine.strategy.orderPlans.head? = some blueprint.plan) (positive : 1 ≤ engine.patience)
    (asSent : engine.options.environment.dryRun = false → venue.AcceptsAsSent engine.options.environment)
    (rounds : List (Round σ)) : engine.Consistent venue rounds := by
  have holds := stateAfter_holds follows venue rounds
  obtain ⟨armTimer, entryTimer⟩ := resting_timers follows venue rounds
  have planned (busy : (engine.stateAfter venue rounds).stage ≠ .idle) : ∃ plan, HoldsPlan engine venue rounds plan :=
    holdsPlan follows first busy
  cases stage : (engine.stateAfter venue rounds).stage with
  | idle =>
    have frozen := holds.idle stage
    have bindings : (engine.stateAfter venue rounds).bindings = [] := by
      rw [holds.bound, frozen]
      rfl
    exact .idle stage (armTimer (by simp [stage])) (entryTimer (by simp [stage])) frozen bindings
      (holds.unsubmitted (.inl stage))
  | armed =>
    obtain ⟨plan, held⟩ := planned (by simp [stage])
    obtain ⟨front, arming, count, since⟩ := stays_since_edge follows (.idle, .armed) (by decide) (by decide) stage
    exact .armed plan front arming count stage held since (armed_timer follows since) (entryTimer (by simp [stage]))
      (holds.unsubmitted (.inr stage))
  | placed =>
    obtain ⟨plan, held⟩ := planned (by simp [stage])
    obtain ⟨front, placing, count, since⟩ := stays_since_edge follows (.armed, .placed) (by decide) (by decide) stage
    obtain ⟨running, written⟩ := placed_timer follows positive since
    exact .placed plan front placing count stage held (holdsOrders follows asSent (by rw [stage]; decide) held.frozen)
      since (armTimer (by simp [stage])) running written
      (fun round processed => placed_timer_next follows positive since round processed)
  | managing | exited =>
    obtain ⟨plan, held⟩ := planned (by simp [stage])
    exact .settled plan (by simp [stage]) held (holdsOrders follows asSent (by rw [stage]; decide) held.frozen)
      (armTimer (by simp [stage])) (entryTimer (by simp [stage]))

end Engine

/-- After every round at a paper venue and after every round of a dry run, whatever the venue, the fields of the state
of a compiled strategy agree with each other and with the rounds so far. -/
theorem compiled_states_consistent {registry : Registry} {json : Json} {strategy : Strategy} {options : EngineOptions}
    {engine : Engine} (compiled : Strategy.ofDocument registry json = .ok strategy)
    (bound : Engine.ofStrategy strategy registry options = .ok engine) :
    (∀ (script : PaperScript) (rounds : List (Round PaperBook)), engine.Consistent script.venue rounds) ∧
      (options.environment.dryRun = true →
        ∀ (σ : Type) (venue : Venue σ) (rounds : List (Round σ)), engine.Consistent venue rounds) := by
  obtain ⟨blueprint, follows, first, positive⟩ := Strategy.ofDocument_first compiled
  obtain ⟨rfl, rfl⟩ := Engine.ofStrategy_keeps bound
  constructor
  · intro script rounds
    exact Engine.consistent follows first positive (fun _ => script.acceptsAsSent _) rounds
  · intro dry σ venue rounds
    apply Engine.consistent follows first positive
    intro live
    rw [dry] at live
    contradiction

/-- The stage, both timers, the number of orders and the number of log entries about timers after some of the rising
bars, live at a paper venue. -/
def Engine.fieldsAfter (engine : Engine) (script : PaperScript) (count : Nat) :
    Stage × Option Nat × Option Nat × Nat × Nat :=
  let state := (engine.after script.venue ⟨0, .empty⟩ (risingBars.take count)).state
  (state.stage, state.armTimer, state.entryTimer, state.orders.length, timerCount state.log)

set_option maxRecDepth 100000 in
/-- With a patience of one bar, a breakout whose orders never become live stays placed and writes once that its entry
timer has run out. In a dry run this happens on the bar on which it begins to manage. -/
theorem impatient_breakout_consistent :
    ∃ strategy live dry, Strategy.ofDocument .empty (impatientDocument "close > 0" 100) = .ok strategy ∧
      Engine.ofStrategy strategy .empty liveOptions = .ok live ∧ Engine.ofStrategy strategy .empty .default = .ok dry ∧
      (∀ rounds, live.Consistent { PaperScript.plain with accepted := .pending }.venue rounds) ∧
      (∀ rounds, dry.Consistent PaperScript.plain.venue rounds) ∧
      [1, 2, 3, 4].map (live.fieldsAfter { PaperScript.plain with accepted := .pending }) =
        [(.armed, some 1, none, 0, 0), (.placed, none, some 1, 3, 0), (.placed, none, none, 3, 1),
          (.placed, none, none, 3, 1)] ∧
      [1, 2, 3, 4].map (dry.fieldsAfter .plain) =
        [(.armed, some 1, none, 0, 0), (.placed, none, some 1, 3, 0), (.managing, none, none, 3, 1),
          (.managing, none, none, 3, 1)] := by
  have passedLive : Engine.passes .empty (impatientDocument "close > 0" 100) liveOptions (fun live => decide <|
      [1, 2, 3, 4].map (live.fieldsAfter { PaperScript.plain with accepted := .pending }) =
        [(.armed, some 1, none, 0, 0), (.placed, none, some 1, 3, 0), (.placed, none, none, 3, 1),
          (.placed, none, none, 3, 1)]) = true := by decide +kernel
  have passedDry : Engine.passes .empty (impatientDocument "close > 0" 100) .default (fun dry => decide <|
      [1, 2, 3, 4].map (dry.fieldsAfter .plain) =
        [(.armed, some 1, none, 0, 0), (.placed, none, some 1, 3, 0), (.managing, none, none, 3, 1),
          (.managing, none, none, 3, 1)]) = true := by decide +kernel
  obtain ⟨strategy, live, compiled, bound, liveFields⟩ := Engine.passes_binds passedLive
  obtain ⟨same, dry, compiledDry, boundDry, dryFields⟩ := Engine.passes_binds passedDry
  obtain rfl := Except.ok.inj (compiledDry.symm.trans compiled)
  exact ⟨same, live, dry, compiled, bound, boundDry, (compiled_states_consistent compiled bound).1 _,
    (compiled_states_consistent compiled boundDry).2 rfl _ _, of_decide_eq_true liveFields,
    of_decide_eq_true dryFields⟩

end TradingStrategy

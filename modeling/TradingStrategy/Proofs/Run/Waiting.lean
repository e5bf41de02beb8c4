import TradingStrategy.Proofs.Run.Lookups
import TradingStrategy.Proofs.Run.Stays
import TradingStrategy.Venue.Paper

/-!
How long a strategy stays armed.

Owns:
- `Engine.EndsWait`: the four ends of a round that finds a strategy armed;
- `armed_strategy_waits`: an armed strategy whose trigger is false gives up with the last bar of its patience, and beyond
  it only a failing trigger, a refusal or a failing venue keep it armed;
- runs in which each of these three does.

The time-out is a transition behind the trigger. A trigger that has no value ends the step in front of it, and one that
fires is tried again on every bar until the plan is placed or the trigger is false.
-/

namespace TradingStrategy

namespace Engine

variable {σ : Type} {engine : Engine} {blueprint : Blueprint} {venue : Venue σ}

/-- What keeps a strategy armed beyond its patience: its trigger has no truth value, or the trigger fires and the risk
gate refuses the frozen plan or the venue does not take it. -/
inductive Stalls (engine : Engine) (blueprint : Blueprint) (venue : Venue σ) (state : EngineState) (world : World σ) :
    Prop where
  | undecided (error : EvalError) (failed : evaluateBool state.context blueprint.trigger = .error error)
  | refused (plan : ResolvedPlan) (reason : RiskRefusal) (frozen : state.frozen = some plan)
      (fires : evaluateBool state.context blueprint.trigger = .ok true)
      (gated : plan.gate engine.strategy.maxRisk = .error reason)
  | unsubmitted (plan : ResolvedPlan) (assessment : RiskAssessment) (error : VenueError)
      (frozen : state.frozen = some plan) (fires : evaluateBool state.context blueprint.trigger = .ok true)
      (gated : plan.gate engine.strategy.maxRisk = .ok assessment)
      (failed : (venue.submit engine.options.environment plan world).1 = .error error)

/-- How a processed round ends that finds a strategy armed. The processed rounds since it armed are counted, this one
included. -/
inductive EndsWait (engine : Engine) (blueprint : Blueprint) (venue : Venue σ) (state : EngineState) (world : World σ)
    (count : Nat) (stage : Stage) : Prop where
  | patient (isFalse : evaluateBool state.context blueprint.trigger = .ok false) (early : count < engine.patience)
      (armed : stage = .armed)
  | gaveUp (isFalse : evaluateBool state.context blueprint.trigger = .ok false) (late : engine.patience ≤ count)
      (idle : stage = .idle)
  | submitted (plan : ResolvedPlan) (assessment : RiskAssessment) (orders : List Order)
      (frozen : state.frozen = some plan) (fires : evaluateBool state.context blueprint.trigger = .ok true)
      (gated : plan.gate engine.strategy.maxRisk = .ok assessment)
      (answered : (venue.submit engine.options.environment plan world).1 = .ok orders) (placed : stage = .placed)
  | stalled (stalls : Stalls engine blueprint venue state world) (armed : stage = .armed)

theorem Advances.endsWait {state : EngineState} {timestamp : Calendar.Instant} {world : World σ} {turn : Turn σ}
    {count : Nat} (advances : Advances engine blueprint venue state timestamp world turn) (armed : state.stage = .armed)
    (counted : state.armTimer = some (engine.patience - count)) :
    EndsWait engine blueprint venue state world count turn.state.stage := by
  cases advances with
  | undecided condition error rule failed =>
    rw [armed] at rule
    obtain rfl := Option.some.inj rule
    exact .stalled (.undecided error failed) armed
  | stayed condition rule isFalse patient =>
    rw [armed] at rule
    obtain rfl := Option.some.inj rule
    have runs : engine.patience - count ≠ 0 := by
      intro stopped
      exact patient armed (counted.trans (congrArg some stopped))
    exact .patient isFalse (by omega) armed
  | refused plan reason _ frozen fires gated => exact .stalled (.refused plan reason frozen fires gated) armed
  | unsubmitted plan assessment error after _ frozen fires gated submitted =>
    exact .stalled (.unsubmitted plan assessment error frozen fires gated (by rw [submitted])) armed
  | placed plan assessment orders after _ frozen fires gated submitted =>
    refine .submitted plan assessment orders frozen fires gated (by rw [submitted]) ?_
    simp only [EngineState.commit_eq, Blueprint.placing, EngineState.enter]
  | gaveUp _ isFalse late =>
    have stopped : engine.patience - count = 0 := Option.some.inj (counted.symm.trans late)
    refine .gaveUp isFalse (by omega) ?_
    simp only [EngineState.commit_eq, Blueprint.giveUp, EngineState.enter]
  | unresolved | armed | unqueried | waited | managed | uncancelled | exited | startedOver => simp_all

theorem EndsWait.overdue {state : EngineState} {world : World σ} {count : Nat} {stage : Stage}
    (ends : EndsWait engine blueprint venue state world count stage) (late : engine.patience ≤ count)
    (armed : stage = .armed) : Stalls engine blueprint venue state world := by
  cases ends with
  | patient isFalse early _ => omega
  | gaveUp isFalse _ idle =>
    rw [armed] at idle
    contradiction
  | submitted plan assessment orders frozen fires gated answered placed =>
    rw [armed] at placed
    contradiction
  | stalled stalls _ => exact stalls

/-- How a strategy waits once it has armed. -/
structure Waits (engine : Engine) (blueprint : Blueprint) (venue : Venue σ) : Prop where
  /-- An armed strategy has armed on some round, and it is armed ever since. -/
  since : ∀ rounds, (engine.stateAfter venue rounds).stage = .armed → ∃ front arming count,
    Since engine venue (.idle, .armed) [.armed] front arming rounds count
  /-- The arm timer counts the processed rounds since then down to zero. -/
  timer : ∀ front arming rounds count, Since engine venue (.idle, .armed) [.armed] front arming rounds count →
    (engine.stateAfter venue rounds).armTimer = some (engine.patience - count)
  /-- A processed round gives up, places or stays. -/
  ends : ∀ front arming rounds count round, Since engine venue (.idle, .armed) [.armed] front arming rounds count →
    (engine.turnIn venue rounds round).isProcessed = true →
    EndsWait engine blueprint venue (engine.looked (engine.stateAfter venue rounds) round.bar) round.world (count + 1)
      (engine.stateAfter venue (rounds ++ [round])).stage
  /-- From the last bar of the patience on, every processed round that the strategy is armed behind was stalled. -/
  overdue : ∀ front arming rounds count round, Since engine venue (.idle, .armed) [.armed] front arming rounds count →
    (engine.turnIn venue rounds round).isProcessed = true → engine.patience ≤ count + 1 →
    (engine.stateAfter venue (rounds ++ [round])).stage = .armed →
    Stalls engine blueprint venue (engine.looked (engine.stateAfter venue rounds) round.bar) round.world
  /-- Any other round stays. -/
  unprocessed : ∀ rounds round, (engine.turnIn venue rounds round).isProcessed = false →
    (engine.stateAfter venue (rounds ++ [round])).stage = (engine.stateAfter venue rounds).stage

theorem turnIn_endsWait (follows : engine.strategy.Follows blueprint) {front rounds : List (Round σ)}
    {arming round : Round σ} {count : Nat}
    (since : Since engine venue (.idle, .armed) [.armed] front arming rounds count)
    (processed : (engine.turnIn venue rounds round).isProcessed = true) :
    EndsWait engine blueprint venue (engine.looked (engine.stateAfter venue rounds) round.bar) round.world (count + 1)
      (engine.stateAfter venue (rounds ++ [round])).stage := by
  have armed := List.mem_singleton.mp (since.inside follows (by decide))
  have ticked : (engine.looked (engine.stateAfter venue rounds) round.bar).armTimer =
      some (engine.patience - (count + 1)) := by
    rw [looked_armTimer armed (armed_timer follows since), Nat.sub_sub]
  obtain ⟨turn, advances, same⟩ := turnIn_advances follows venue rounds round processed
  obtain ⟨log, logged⟩ := logError_eq round.bar.timestamp turn
  rw [stateAfter_snoc, same, logged]
  exact advances.endsWait armed ticked

theorem waits (follows : engine.strategy.Follows blueprint) (venue : Venue σ) : engine.Waits blueprint venue where
  since rounds armed := stays_since_edge follows (.idle, .armed) (by decide) (by decide) armed
  timer front arming rounds count since := armed_timer follows since
  ends front arming rounds count round since processed := turnIn_endsWait follows since processed
  overdue front arming rounds count round since processed late armed :=
    (turnIn_endsWait follows since processed).overdue late armed
  unprocessed rounds round unprocessed := by
    rw [stateAfter_snoc]
    rcases turnIn_edge follows venue rounds round with ⟨same, _⟩ | ⟨edge, _, moved, _⟩
    · exact same
    · rw [Turn.isProcessed_of_move? moved] at unprocessed
      contradiction

end Engine

/-- Over every venue and all rounds, a compiled strategy is armed for less than the bars of its patience, or the last of
these bars and every processed one behind it was stalled. -/
theorem armed_strategy_waits {registry : Registry} {json : Json} {strategy : Strategy} {options : EngineOptions}
    {engine : Engine} (compiled : Strategy.ofDocument registry json = .ok strategy)
    (bound : Engine.ofStrategy strategy registry options = .ok engine) :
    ∃ blueprint : Blueprint, strategy.Follows blueprint ∧
      ∀ (σ : Type) (venue : Venue σ), engine.Waits blueprint venue := by
  obtain ⟨blueprint, follows, _, _⟩ := Strategy.ofDocument_follows compiled
  obtain ⟨sameStrategy, _⟩ := Engine.ofStrategy_keeps bound
  exact ⟨blueprint, follows, fun σ venue => Engine.waits (sameStrategy.symm ▸ follows) venue⟩

/-! ### Waiting for one bar -/

/-- A breakout with a patience of one bar, with its trigger and its risk limit. -/
def impatientDocument (trigger : String) (limit : Int) : Json :=
  .object [
    ("meta", .object [("name", .string "impatient"), ("symbol", .string "ACME"), ("timeframe", .string "1m")]),
    ("rules", .object [("arm", .string "close > open"), ("trigger", .string trigger)]),
    ("orderPlans", .array [.object [
      ("id", .string "primary"), ("side", .string "buy"), ("qty", .int 10),
      ("entryZone", .array [.string "close - 1", .string "close"]), ("stopPrice", .string "eL - 4"),
      ("targets", .array [
        .object [("price", .string "entry + 2 * (entry - stop)"), ("ratioOfPosition", .int 1)]])]]),
    ("execution", .object [("entryTimeoutBars", .int 1)]),
    ("risk", .object [("maxRiskPerTrade", .int limit)])]

/-- The stage, the arm timer and the number of processed bars after some of the rising bars, live at a paper venue. -/
def Engine.waitAfter (engine : Engine) (script : PaperScript) (count : Nat) : Stage × Option Nat × Nat :=
  let state := (engine.after script.venue ⟨0, .empty⟩ (risingBars.take count)).state
  (state.stage, state.armTimer, state.barsProcessed)

set_option maxRecDepth 100000 in
/-- A strategy whose trigger is false gives up on the bar behind the one on which it has armed. -/
theorem impatient_breakout_gives_up :
    ∃ strategy engine blueprint, Strategy.ofDocument .empty (impatientDocument "close > 1000" 100) = .ok strategy ∧
      Engine.ofStrategy strategy .empty liveOptions = .ok engine ∧ strategy.Follows blueprint ∧
      engine.Waits blueprint PaperScript.plain.venue ∧
      [1, 2, 3].map (engine.waitAfter .plain) = [(.armed, some 1, 1), (.idle, none, 2), (.armed, some 1, 3)] := by
  have passed : Engine.passes .empty (impatientDocument "close > 1000" 100) liveOptions (fun engine => decide <|
      [1, 2, 3].map (engine.waitAfter .plain) = [(.armed, some 1, 1), (.idle, none, 2), (.armed, some 1, 3)]) = true := by
    decide +kernel
  obtain ⟨strategy, engine, compiled, bound, waited⟩ := Engine.passes_binds passed
  obtain ⟨blueprint, follows, waits⟩ := armed_strategy_waits compiled bound
  exact ⟨strategy, engine, blueprint, compiled, bound, follows, waits _ _, of_decide_eq_true waited⟩

/-- With a patience of one bar, the strategy is still armed two processed bars after the one on which it has armed. -/
def OutlastsPatience (trigger : String) (limit : Int) (script : PaperScript) : Prop :=
  ∃ strategy engine, Strategy.ofDocument .empty (impatientDocument trigger limit) = .ok strategy ∧
    Engine.ofStrategy strategy .empty liveOptions = .ok engine ∧ engine.patience = 1 ∧
    [1, 2, 3].map (engine.waitAfter script) = [(.armed, some 1, 1), (.armed, some 0, 2), (.armed, some 0, 3)]

set_option maxRecDepth 100000 in
/-- A trigger that is not boolean, a plan with too much risk, and a venue that rejects the entry keep a strategy armed
beyond its patience. -/
theorem stalled_breakouts_outlast_patience :
    OutlastsPatience "close" 100 .plain ∧ OutlastsPatience "close > 0" 10 .plain ∧
      OutlastsPatience "close > 0" 100 { PaperScript.plain with rejectedPlacements := [1, 2] } := by
  have outlasts (trigger : String) (limit : Int) (script : PaperScript)
      (passed : Engine.passes .empty (impatientDocument trigger limit) liveOptions (fun engine =>
        decide (engine.patience = 1) && decide ([1, 2, 3].map (engine.waitAfter script) =
          [(.armed, some 1, 1), (.armed, some 0, 2), (.armed, some 0, 3)])) = true) :
      OutlastsPatience trigger limit script := by
    obtain ⟨strategy, engine, compiled, bound, stalled⟩ := Engine.passes_binds passed
    obtain ⟨patience, armed⟩ := Bool.and_eq_true_iff.mp stalled
    exact ⟨strategy, engine, compiled, bound, of_decide_eq_true patience, of_decide_eq_true armed⟩
  refine ⟨outlasts _ _ _ ?_, outlasts _ _ _ ?_, outlasts _ _ _ ?_⟩
  · decide +kernel
  · decide +kernel
  · decide +kernel

end TradingStrategy

import Mathlib.Data.List.Induction
import TradingStrategy.Proofs.Run.Lookups
import TradingStrategy.Proofs.Venue.Journal
import TradingStrategy.Venue.Paper

/-!
What a run sends to its venue.

Owns:
- `Engine.ArmedSince`: the bar on which a strategy armed, the plan that was frozen there, and that nothing has touched
  either since;
- `Engine.Submits`: what has to hold when legs go out;
- `live_engine_sends_on_trigger`: a live run sends legs on no other occasion, and between two successful submissions
  the strategy is idle.
-/

namespace TradingStrategy

namespace Engine

variable {σ : Type} {engine : Engine} {blueprint : Blueprint} {venue : Venue σ} {world : World σ}

/-- A plan was frozen when the strategy armed on one of the bars, and ever since the strategy is armed with it. -/
def ArmedSince (engine : Engine) (blueprint : Blueprint) (venue : Venue σ) (world : World σ) (bars : List Bar)
    (plan : ResolvedPlan) : Prop :=
  ∃ front arming middle, bars = front ++ arming :: middle ∧
    (engine.turnAfter venue world front arming).result = .ok (.moved .idle .armed) ∧
    blueprint.plan.resolve (engine.observed (engine.after venue world front).state arming).history = .ok plan ∧
    ∀ part, part <+: middle →
      (engine.after venue world (front ++ arming :: part)).state.stage = .armed ∧
        (engine.after venue world (front ++ arming :: part)).state.frozen = some plan

/-- Legs go out: the strategy is armed and its trigger fires, the frozen plan passes the risk gate and has no fault, and
the legs are a prefix of its bracket. -/
structure Submits (engine : Engine) (blueprint : Blueprint) (state : EngineState) (plan : ResolvedPlan)
    (sent : List OrderLeg) : Prop where
  armed : state.stage = .armed
  fires : evaluateBool state.context blueprint.trigger = .ok true
  frozen : state.frozen = some plan
  gated : ∃ assessment, plan.gate engine.strategy.maxRisk = .ok assessment
  faultless : plan.fault? = none
  legs : ∃ legs, plan.bracket = .ok legs ∧ sent <+: legs

/-! ### From arming to the trigger -/

theorem after_snoc_moves (follows : engine.strategy.Follows blueprint) (venue : Venue σ) (world : World σ)
    (bars : List Bar) (bar : Bar) :
    Moves engine blueprint (engine.after venue world bars).state bar (engine.turnAfter venue world bars bar).result
      (engine.after venue world (bars ++ [bar])).state := by
  rw [after_snoc]
  exact processBar_moves follows (after_holds follows venue world bars) bar

/-- An armed strategy has the plan that was frozen when it armed. -/
theorem armed_since (follows : engine.strategy.Follows blueprint) {bars : List Bar}
    (armed : (engine.after venue world bars).state.stage = .armed) :
    ∃ plan, (engine.after venue world bars).state.frozen = some plan ∧
      engine.ArmedSince blueprint venue world bars plan := by
  induction bars using List.reverseRecOn with
  | nil =>
    have idle : engine.startState.stage = .idle := follows.start
    rw [show (engine.after venue world []).state = engine.startState from rfl, idle] at armed
    contradiction
  | append_singleton bars bar inductionHypothesis =>
    cases after_snoc_moves follows venue world bars bar with
    | stays stage frozen unmoved =>
      rw [stage] at armed
      obtain ⟨plan, isFrozen, front, arming, middle, rfl, moved, resolved, kept⟩ := inductionHypothesis armed
      refine ⟨plan, frozen.trans isFrozen, front, arming, middle ++ [bar], by simp, moved, resolved, ?_⟩
      intro part isPart
      rcases List.prefix_concat_iff.mp isPart with rfl | isPart
      · rw [← List.cons_append, ← List.append_assoc]
        exact ⟨stage.trans armed, frozen.trans isFrozen⟩
      · exact kept part isPart
    | arms plan idle stage resolved frozen moved =>
      refine ⟨plan, frozen, bars, bar, [], rfl, moved, resolved, ?_⟩
      intro part isPart
      rw [List.prefix_nil.mp isPart]
      exact ⟨stage, frozen⟩
    | goesOn edge frozen moved =>
      simp [armed] at edge
    | resets edge stage frozen moved =>
      rw [stage] at armed
      contradiction

/-! ### From one submission to the next -/

/-- A strategy that has submitted and has not been idle since is not armed. -/
theorem idle_before_armed (follows : engine.strategy.Follows blueprint) {front : List Bar} {first : Bar}
    (submitted : (engine.turnAfter venue world front first).result = .ok (.moved .armed .placed)) (middle : List Bar) :
    (∃ part, part <+: middle ∧ (engine.after venue world (front ++ first :: part)).state.stage = .idle) ∨
      (engine.after venue world (front ++ first :: middle)).state.stage ∈ [Stage.placed, .managing, .exited] := by
  induction middle using List.reverseRecOn with
  | nil =>
    cases submitted ▸ after_snoc_moves follows venue world front first with
    | stays stage frozen unmoved => exact absurd rfl (unmoved .armed .placed)
    | arms plan idle stage resolved frozen moved => simp at moved
    | goesOn edge frozen moved =>
      simp only [Except.ok.injEq, BarOutcome.moved.injEq] at moved
      rw [← moved.2]
      exact .inr (by simp)
    | resets edge stage frozen moved => simp at moved
  | append_singleton middle bar inductionHypothesis =>
    have longer : front ++ first :: (middle ++ [bar]) = (front ++ first :: middle) ++ [bar] := by simp
    rcases inductionHypothesis with ⟨part, isPart, idle⟩ | busy
    · exact .inl ⟨part, isPart.trans (List.prefix_append _ _), idle⟩
    · rw [longer]
      cases after_snoc_moves follows venue world (front ++ first :: middle) bar with
      | stays stage frozen unmoved => exact .inr (stage ▸ busy)
      | arms plan idle stage resolved frozen moved => simp [idle] at busy
      | goesOn edge frozen moved =>
        simp only [List.mem_cons, Prod.mk.injEq, List.not_mem_nil, or_false] at edge
        rcases edge with ⟨_, stage⟩ | ⟨_, stage⟩ | ⟨_, stage⟩
        · exact .inr (by rw [stage]; simp)
        · exact .inr (by rw [stage]; simp)
        · exact .inr (by rw [stage]; simp)
      | resets edge stage frozen moved =>
        exact .inl ⟨middle ++ [bar], List.prefix_rfl, by rw [longer]; exact stage⟩

theorem idle_between (follows : engine.strategy.Follows blueprint) {front middle : List Bar} {first second : Bar}
    (submitted : (engine.turnAfter venue world front first).result = .ok (.moved .armed .placed))
    (again : (engine.turnAfter venue world (front ++ first :: middle) second).result = .ok (.moved .armed .placed)) :
    ∃ part, part <+: middle ∧ (engine.after venue world (front ++ first :: part)).state.stage = .idle := by
  rcases idle_before_armed follows submitted middle with idle | busy
  · exact idle
  · cases again ▸ after_snoc_moves follows venue world (front ++ first :: middle) second with
    | stays stage frozen unmoved => exact absurd rfl (unmoved .armed .placed)
    | arms plan idle stage resolved frozen moved => simp at moved
    | goesOn edge frozen moved =>
      simp only [Except.ok.injEq, BarOutcome.moved.injEq] at moved
      simp [← moved.1] at busy
    | resets edge stage frozen moved => simp at moved

/-! ### What a bar sends -/

/-- A step sends nothing, or it submits the frozen plan; a successful submission sends the whole bracket. -/
theorem Advances.sends (live : engine.options.environment.dryRun = false) {state : EngineState}
    {timestamp : Calendar.Instant} {world : World (Recorded σ)} {turn : Turn (Recorded σ)}
    (advances : Advances engine blueprint venue.recorded state timestamp world turn) :
    ∃ sent, turn.world.sent = world.sent ++ sent ∧
      (sent ≠ [] → ∃ plan, engine.Submits blueprint state plan sent) ∧
      (turn.result = .ok (.moved .armed .placed) → ∃ plan, state.frozen = some plan ∧ plan.bracket = .ok sent) := by
  have asking {answer : Except EngineError (List Order)} {after : World (Recorded σ)}
      (asked : engine.ownOrders venue.recorded state world = (answer, after)) : after.sent = world.sent ++ [] := by
    have silent := sent_ownOrders engine venue state world
    rw [asked] at silent
    rw [List.append_nil, silent]
  cases advances with
  | undecided | stayed | unresolved | armed | refused | gaveUp | startedOver =>
    exact ⟨[], (List.append_nil _).symm, by simp, by simp⟩
  | unqueried error after placed asked => exact ⟨[], asking asked, by simp, by simp⟩
  | waited orders after placed asked noneLive => exact ⟨[], asking asked, by simp, by simp⟩
  | managed orders after placed asked live => exact ⟨[], asking asked, by simp, by simp⟩
  | uncancelled error after managing fires asked => exact ⟨[], asking asked, by simp, by simp⟩
  | exited orders between after report managing fires asked cancelled =>
    have cancelling := Venue.sent_cancelEntries venue engine.options.environment (engine.planSymbol state) orders between
    rw [cancelled] at cancelling
    exact ⟨[], cancelling.trans (asking asked), by simp, by simp⟩
  | unsubmitted plan assessment error after armed frozen fires gated submitted =>
    rcases Venue.sent_submit venue live plan world with
      ⟨_, _, silent⟩ | ⟨legs, sent, sound, all, added, isPrefix, _⟩
    · rw [submitted] at silent
      exact ⟨[], by rw [List.append_nil]; exact silent, by simp, by simp⟩
    · rw [submitted] at added
      refine ⟨sent, added, fun _ => ⟨plan, armed, fires, frozen, ⟨assessment, gated⟩, sound, legs, all, isPrefix⟩, ?_⟩
      simp
  | placed plan assessment orders after armed frozen fires gated submitted =>
    rcases Venue.sent_submit venue live plan world with
      ⟨fault, faulty, _⟩ | ⟨legs, sent, sound, all, added, isPrefix, whole⟩
    · simp [Venue.submit, ResolvedPlan.bracket, faulty] at submitted
    · rw [submitted] at added whole
      refine ⟨sent, added, fun _ => ⟨plan, armed, fires, frozen, ⟨assessment, gated⟩, sound, legs, all, isPrefix⟩, ?_⟩
      exact fun _ => ⟨plan, frozen, by rw [whole orders rfl]; exact all⟩

theorem processBar_sends (follows : engine.strategy.Follows blueprint)
    (live : engine.options.environment.dryRun = false) (venue : Venue σ) {state : EngineState}
    (holds : state.Holds blueprint) (bar : Bar) (world : World (Recorded σ)) :
    ∃ sent, (engine.processBar venue.recorded state bar world).world.sent = world.sent ++ sent ∧
      (sent ≠ [] → ∃ plan, engine.Submits blueprint (engine.observed state bar) plan sent) ∧
      ((engine.processBar venue.recorded state bar world).result = .ok (.moved .armed .placed) →
        ∃ plan, state.frozen = some plan ∧ plan.bracket = .ok sent) := by
  generalize turned : engine.processBar venue.recorded state bar world = turn
  cases turned ▸ processBar_processes follows holds bar with
  | rejected | skipped => exact ⟨[], (List.append_nil _).symm, by simp, by simp⟩
  | looked turn accepted opens advances =>
    obtain ⟨log, same⟩ := logError_eq bar.timestamp turn
    rw [same]
    obtain ⟨sent, added, submits, whole⟩ := advances.sends live
    rw [(observed_stage engine state bar).2.1] at whole
    exact ⟨sent, added, submits, whole⟩

/-- How a live engine treats a venue. What it sends is read off a journal, which changes nothing. -/
structure SendsOnTrigger (engine : Engine) (blueprint : Blueprint) (venue : Venue σ) (world : World σ) : Prop where
  journal : ∀ bars, (engine.after venue.recorded world.recorded bars).state = (engine.after venue world bars).state ∧
    (engine.after venue.recorded world.recorded bars).world.inner = (engine.after venue world bars).world
  /-- A bar sends nothing, or it finds the strategy armed, its trigger fires, and the legs are those of the plan that
  was frozen when the strategy armed. If the bar places the strategy, the whole bracket was sent. -/
  legs : ∀ bars bar, ∃ sent,
    (engine.after venue.recorded world.recorded (bars ++ [bar])).world.sent =
      (engine.after venue.recorded world.recorded bars).world.sent ++ sent ∧
    (sent ≠ [] → ∃ plan, (engine.after venue world bars).state.stage = .armed ∧
      engine.ArmedSince blueprint venue world bars plan ∧
      engine.Submits blueprint (engine.observed (engine.after venue world bars).state bar) plan sent) ∧
    ((engine.turnAfter venue world bars bar).result = .ok (.moved .armed .placed) →
      ∃ plan, (engine.after venue world bars).state.frozen = some plan ∧ plan.bracket = .ok sent)
  /-- Between two successful submissions the strategy is idle. -/
  once : ∀ front first middle second,
    (engine.turnAfter venue world front first).result = .ok (.moved .armed .placed) →
    (engine.turnAfter venue world (front ++ first :: middle) second).result = .ok (.moved .armed .placed) →
    ∃ part, part <+: middle ∧ (engine.after venue world (front ++ first :: part)).state.stage = .idle

theorem sendsOnTrigger (follows : engine.strategy.Follows blueprint)
    (live : engine.options.environment.dryRun = false) (venue : Venue σ) (world : World σ) :
    engine.SendsOnTrigger blueprint venue world where
  journal bars := after_recorded engine venue world.recorded bars
  legs bars bar := by
    obtain ⟨sameState, sameWorld⟩ := after_recorded engine venue world.recorded bars
    have same := processBar_similar (Venue.recorded_similar venue engine.options.environment)
      (engine.after venue world bars).state bar sameWorld
    obtain ⟨sent, added, submits, whole⟩ := processBar_sends follows live venue
      (after_holds follows venue world bars) bar (engine.after venue.recorded world.recorded bars).world
    refine ⟨sent, ?_, ?_, fun moved => whole (same.result.trans moved)⟩
    · rw [after_snoc, runStep, sameState]
      exact added
    · intro nonempty
      obtain ⟨plan, submission⟩ := submits nonempty
      obtain ⟨sameStage, sameFrozen, _⟩ := observed_stage engine (engine.after venue world bars).state bar
      have armed := sameStage ▸ submission.armed
      obtain ⟨held, isFrozen, since⟩ := armed_since follows armed
      have same : held = plan := Option.some.inj (isFrozen.symm.trans (sameFrozen ▸ submission.frozen))
      subst same
      exact ⟨held, armed, since, submission⟩
  once _ _ _ _ submitted again := idle_between follows submitted again

end Engine

/-- Over every venue and every sequence of bars, a live run of a compiled strategy sends legs only on a bar that finds
the strategy armed and whose trigger fires. They are a prefix of the bracket of the plan that was frozen when the
strategy armed, which has passed the risk gate and has no fault. -/
theorem live_engine_sends_on_trigger {registry : Registry} {json : Json} {strategy : Strategy}
    {options : EngineOptions} {engine : Engine} (compiled : Strategy.ofDocument registry json = .ok strategy)
    (bound : Engine.ofStrategy strategy registry options = .ok engine) (live : options.environment.dryRun = false) :
    ∃ blueprint : Blueprint, strategy.Follows blueprint ∧
      ∀ (σ : Type) (venue : Venue σ) (world : World σ), engine.SendsOnTrigger blueprint venue world := by
  obtain ⟨blueprint, follows, _, _⟩ := Strategy.ofDocument_follows compiled
  obtain ⟨sameStrategy, sameOptions⟩ := Engine.ofStrategy_keeps bound
  refine ⟨blueprint, follows, fun σ venue world => ?_⟩
  exact Engine.sendsOnTrigger (sameStrategy.symm ▸ follows) (sameOptions.symm ▸ live) venue world

set_option maxRecDepth 100000 in
/-- The breakout strategy, live at a paper venue, sends its bracket of three legs on the second of four bars. -/
theorem breakout_sends_on_trigger :
    ∃ strategy engine blueprint, Strategy.ofDocument .empty breakoutDocument = .ok strategy ∧
      Engine.ofStrategy strategy .empty liveOptions = .ok engine ∧ strategy.Follows blueprint ∧
      engine.SendsOnTrigger blueprint PaperScript.plain.venue ⟨0, .empty⟩ ∧
      [1, 2, 4].map (fun count => (engine.after PaperScript.plain.venue.recorded (World.recorded ⟨0, .empty⟩)
        (risingBars.take count)).world.sent.map OrderLeg.role) =
          [[], [.entry, .stop, .target 0], [.entry, .stop, .target 0]] := by
  have passed : Engine.passes .empty breakoutDocument liveOptions (fun engine => decide <|
      [1, 2, 4].map (fun count => (engine.after PaperScript.plain.venue.recorded (World.recorded ⟨0, .empty⟩)
        (risingBars.take count)).world.sent.map OrderLeg.role) =
          [[], [.entry, .stop, .target 0], [.entry, .stop, .target 0]]) = true := by decide +kernel
  obtain ⟨strategy, engine, compiled, bound, sent⟩ := Engine.passes_binds passed
  obtain ⟨blueprint, follows, sends⟩ := live_engine_sends_on_trigger compiled bound rfl
  exact ⟨strategy, engine, blueprint, compiled, bound, follows, sends _ _ _, of_decide_eq_true sent⟩

end TradingStrategy

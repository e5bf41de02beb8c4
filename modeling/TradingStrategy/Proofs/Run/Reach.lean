import Mathlib.Data.List.Basic
import Mathlib.Data.List.Induction
import TradingStrategy.Proofs.Engine.Stages
import TradingStrategy.Proofs.Venue.Simulation
import TradingStrategy.Run.Report

/-!
Runs, bar by bar.

Owns: the run after some bars, the induction over its bars, that what holds at all times of a state holds after every
bar, that runs over similar venues pass through the same states, and what a run that comes to its end is.
-/

namespace TradingStrategy.Engine

variable {σ : Type}

/-- The run after some bars. -/
def after (engine : Engine) (venue : Venue σ) (world : World σ) (bars : List Bar) : RunState σ :=
  bars.foldl (engine.runStep venue) (engine.runStart world)

/-- The turn of one more bar. -/
def turnAfter (engine : Engine) (venue : Venue σ) (world : World σ) (bars : List Bar) (bar : Bar) : Turn σ :=
  let run := engine.after venue world bars
  engine.processBar venue run.state bar run.world

variable {engine : Engine} {venue : Venue σ} {world : World σ}

theorem run_eq_after (bars : List Bar) : engine.run venue world bars = engine.report (engine.after venue world bars) :=
  rfl

theorem after_append (bars more : List Bar) :
    engine.after venue world (bars ++ more) = more.foldl (engine.runStep venue) (engine.after venue world bars) := by
  rw [after, List.foldl_append]
  rfl

theorem after_snoc (bars : List Bar) (bar : Bar) :
    engine.after venue world (bars ++ [bar]) = engine.runStep venue (engine.after venue world bars) bar :=
  after_append bars [bar]

theorem after_snoc_turn (bars : List Bar) (bar : Bar) :
    engine.after venue world (bars ++ [bar]) =
      let turn := engine.turnAfter venue world bars bar
      ⟨turn.state, turn.world, (engine.after venue world bars).tally.count turn.result⟩ :=
  after_snoc bars bar

/-- What holds in front of the first bar and is kept by every bar holds after all bars. -/
theorem after_induction (holds : EngineState → World σ → Prop) (start : holds engine.startState world)
    (kept : ∀ state world bar, holds state world →
      holds (engine.processBar venue state bar world).state (engine.processBar venue state bar world).world)
    (bars : List Bar) : holds (engine.after venue world bars).state (engine.after venue world bars).world := by
  have folded : ∀ (bars : List Bar) (run : RunState σ), holds run.state run.world →
      holds (bars.foldl (engine.runStep venue) run).state (bars.foldl (engine.runStep venue) run).world := by
    intro bars
    induction bars with
    | nil => exact fun _ now => now
    | cons first rest inductionHypothesis =>
      exact fun run now => inductionHypothesis (engine.runStep venue run first) (kept run.state run.world first now)
  exact folded bars (engine.runStart world) start

theorem after_holds {blueprint : Blueprint} (follows : engine.strategy.Follows blueprint) (venue : Venue σ)
    (world : World σ) (bars : List Bar) :
    (engine.after venue world bars).state.Holds blueprint :=
  after_induction (fun state _ => state.Holds blueprint) (startState_holds follows)
    (fun _ _ bar holds => processBar_holds follows holds bar) bars

theorem after_similar {τ : Type} {other : Venue τ} {world' : World τ} {related : World σ → World τ → Prop}
    (similar : Venue.Similar engine.options.environment venue other related) (start : related world world')
    (bars : List Bar) :
    (engine.after venue world bars).state = (engine.after other world' bars).state ∧
      related (engine.after venue world bars).world (engine.after other world' bars).world := by
  have folded : ∀ (bars : List Bar) (run : RunState σ) (run' : RunState τ),
      run.state = run'.state ∧ related run.world run'.world →
      (bars.foldl (engine.runStep venue) run).state = (bars.foldl (engine.runStep other) run').state ∧
        related (bars.foldl (engine.runStep venue) run).world (bars.foldl (engine.runStep other) run').world := by
    intro bars
    induction bars with
    | nil => exact fun _ _ now => now
    | cons first rest inductionHypothesis =>
      intro run run' ⟨sameState, now⟩
      apply inductionHypothesis
      have turned := processBar_similar similar run.state first now
      rw [runStep, runStep, ← sameState]
      exact ⟨turned.state, turned.world⟩
  exact folded bars (engine.runStart world) (engine.runStart world') ⟨rfl, start⟩

theorem after_keeps {holds : World σ → Prop} (keeps : venue.Keeps engine.options.environment holds)
    (start : holds world) (bars : List Bar) : holds (engine.after venue world bars).world :=
  after_induction (fun _ world => holds world) start
    (fun state _ bar now => processBar_keeps keeps state bar now) bars

/-! ### Runs that may stop -/

theorem runStep?_eq (run : RunState σ) (bar : Bar) :
    engine.runStep? venue run bar = if engine.stopsAt run.state bar then none else some (engine.runStep venue run bar) := by
  unfold runStep? processBar?
  split <;> rfl

theorem runTo?_snoc (bars : List Bar) (bar : Bar) :
    engine.runTo? venue world (bars ++ [bar]) =
      (engine.runTo? venue world bars).bind fun run => engine.runStep? venue run bar := by
  simp only [runTo?, List.foldlM_append, List.foldlM_cons, List.foldlM_nil, bind_pure, Option.bind_eq_bind]

/-- A run that comes to its end is the run that does not look out for stops. -/
theorem after_of_runTo? {bars : List Bar} {run : RunState σ} (completes : engine.runTo? venue world bars = some run) :
    run = engine.after venue world bars := by
  induction bars using List.reverseRecOn generalizing run with
  | nil => exact (Option.some.inj completes).symm
  | append_singleton front bar inductionHypothesis =>
    rw [runTo?_snoc] at completes
    obtain ⟨before, reached, stepped⟩ := Option.bind_eq_some_iff.mp completes
    rw [runStep?_eq, inductionHypothesis reached] at stepped
    split at stepped
    · nomatch stepped
    · rw [after_snoc, ← Option.some.inj stepped]

/-- Where no engine stops, every engine has its report. -/
theorem runTasks_eq_runAll {participants : List Participant} {bars : List Bar}
    (complete : ∀ participant ∈ participants, (participant.engine.runTo? participant.venue participant.world
      (participant.engine.barsOf bars)).isSome = true) : runTasks participants bars = runAll participants bars := by
  have reported : ∀ participant ∈ participants,
      (participant.engine.runTo? participant.venue participant.world (participant.engine.barsOf bars)).map
          participant.engine.report =
        some (participant.engine.run participant.venue participant.world (participant.engine.barsOf bars)) := by
    intro participant member
    obtain ⟨run, completes⟩ := Option.isSome_iff_exists.mp (complete participant member)
    rw [completes, after_of_runTo? completes]
    rfl
  rw [runTasks, runAll, List.filterMap_congr reported, List.filterMap_eq_map']

end TradingStrategy.Engine

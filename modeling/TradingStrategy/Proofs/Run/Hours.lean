import Mathlib.Data.List.TakeWhile
import TradingStrategy.Proofs.Run.Feed
import TradingStrategy.Proofs.Run.Lifecycle

/-!
Regular hours.

Owns:
- the twin of a strategy that looks at bars at all hours, and that both take the same steps;
- `Engine.InOrder`: the bars that an engine turns away none of;
- `Engine.Filters`: a run in regular hours, told by the run of the twin over the bars of the session;
- `regular_hours_filter`: every run of a compiled strategy in regular hours is told in this way, up to the first bar
  without a local time, at which it stops.

A skipped bar moves the time of the last bar and nothing else, and on bars in order no step reads that time.
-/

namespace TradingStrategy

variable {σ : Type}

/-! ### Twins -/

def Execution.atAllHours (execution : Execution) : Execution :=
  { execution with regularHoursOnly := false }

def Strategy.atAllHours (strategy : Strategy) : Strategy :=
  { strategy with execution := strategy.execution.atAllHours }

def StrategyDocument.atAllHours (document : StrategyDocument) : StrategyDocument :=
  { document with execution := document.execution.atAllHours }

/-- The twin of a compiled strategy is compiled from the twin of its document. -/
theorem StrategyDocument.compile_atAllHours {registry : Registry} {document : StrategyDocument} {strategy : Strategy}
    (compiled : document.compile registry = .ok strategy) :
    document.atAllHours.compile registry = .ok strategy.atAllHours := by
  have sameNames : document.atAllHours.featureNames = document.featureNames := rfl
  have sameRegistered : document.atAllHours.registeredNames = document.registeredNames := rfl
  have sameRules : document.atAllHours.rules = document.rules := rfl
  have samePlans : document.atAllHours.orderPlans = document.orderPlans := rfl
  unfold compile at compiled
  obtain ⟨_, isDeclared, compiled⟩ := bind_eq_ok compiled
  obtain ⟨arm, isArm, compiled⟩ := bind_eq_ok compiled
  obtain ⟨trigger, isTrigger, compiled⟩ := bind_eq_ok compiled
  obtain ⟨invalidate, isInvalidate, compiled⟩ := bind_eq_ok compiled
  obtain ⟨featurePlan, isFeaturePlan, compiled⟩ := bind_eq_ok compiled
  obtain ⟨plans, arePlans, compiled⟩ := bind_eq_ok compiled
  rw [← Except.ok.inj compiled]
  simp only [compile, sameNames, sameRegistered, sameRules, samePlans, isDeclared, isArm, isTrigger, isInvalidate,
    isFeaturePlan, arePlans]
  rfl

namespace Engine

def atAllHours (engine : Engine) : Engine :=
  { engine with strategy := engine.strategy.atAllHours }

theorem ofStrategy_atAllHours {strategy : Strategy} {registry : Registry} {options : EngineOptions} {engine : Engine}
    (bound : ofStrategy strategy registry options = .ok engine) :
    ofStrategy strategy.atAllHours registry options = .ok engine.atAllHours := by
  have samePlan : strategy.atAllHours.featurePlan = strategy.featurePlan := rfl
  unfold ofStrategy at bound ⊢
  rw [samePlan]
  split at bound
  · next pipeline _ => rw [← Except.ok.inj bound]; rfl
  · contradiction

/-! ### The same steps -/

section
variable (engine : Engine) (venue : Venue σ) (state : EngineState)

theorem looksAt_atAllHours (bar : Bar) : engine.atAllHours.looksAt bar = true := rfl

theorem stopsAt_atAllHours (bar : Bar) : engine.atAllHours.stopsAt state bar = false := by
  have noHours : engine.atAllHours.strategy.execution.regularHoursOnly = false := rfl
  rw [stopsAt, noHours, Bool.and_false, Bool.false_and]

theorem guardHolds_atAllHours (guard : Guard) (world : World σ) :
    engine.atAllHours.guardHolds venue state guard world = engine.guardHolds venue state guard world := rfl

theorem select_atAllHours (transitions : List Transition) (world : World σ) :
    engine.atAllHours.select venue state transitions world = engine.select venue state transitions world := by
  induction transitions generalizing world with
  | nil => rfl
  | cons first rest inductionHypothesis =>
    rw [select, select]
    simp only [inductionHypothesis, guardHolds_atAllHours]

theorem perform_atAllHours (staged : Staged) (action : Action) (world : World σ) :
    engine.atAllHours.perform venue state staged action world = engine.perform venue state staged action world := rfl

theorem performAll_atAllHours (staged : Staged) (actions : List Action) (world : World σ) :
    engine.atAllHours.performAll venue state staged actions world =
      engine.performAll venue state staged actions world := by
  induction actions generalizing staged world with
  | nil => rfl
  | cons first rest inductionHypothesis => simp only [performAll, inductionHypothesis, perform_atAllHours]

theorem take_atAllHours (timestamp : Calendar.Instant) (transition : Transition) (world : World σ) :
    engine.atAllHours.take venue state timestamp transition world =
      engine.take venue state timestamp transition world := by
  have samePreparation : engine.atAllHours.prepare state transition.target = engine.prepare state transition.target :=
    rfl
  unfold take
  simp only [samePreparation, performAll_atAllHours]
  rfl

theorem advance_atAllHours (timestamp : Calendar.Instant) (world : World σ) :
    engine.atAllHours.advance venue state timestamp world = engine.advance venue state timestamp world := by
  unfold advance
  simp only [select_atAllHours, take_atAllHours]
  rfl

end

/-! ### Bars in order -/

/-- Bars of the engine's own symbol, each later than the ones before it. -/
structure InOrder (engine : Engine) (bars : List Bar) : Prop where
  own : ∀ bar ∈ bars, bar.symbol = engine.strategy.symbol
  ascending : bars.Pairwise fun earlier later => earlier.timestamp.before later.timestamp = true

variable {engine : Engine} {venue : Venue σ} {world : World σ} {state : EngineState} {bars front : List Bar} {bar : Bar}

theorem InOrder.sublist (inOrder : engine.InOrder bars) {part : List Bar} (isPart : part.Sublist bars) :
    engine.InOrder part where
  own other member := inOrder.own other (isPart.subset member)
  ascending := inOrder.ascending.sublist isPart

theorem InOrder.atAllHours (inOrder : engine.InOrder bars) : engine.atAllHours.InOrder bars :=
  ⟨inOrder.own, inOrder.ascending⟩

theorem InOrder.initial (inOrder : engine.InOrder (front ++ [bar])) : engine.InOrder front :=
  inOrder.sublist (List.sublist_append_left front [bar])

theorem InOrder.fed (inOrder : engine.InOrder bars) : engine.IsFed bars :=
  ⟨inOrder.own, inOrder.ascending.imp Calendar.Instant.notAfter_of_before⟩

/-- A bar behind others in order is accepted. -/
theorem InOrder.accepted (inOrder : engine.InOrder (front ++ [bar])) (last : state.lastTimestamp = lastOf front) :
    engine.rejection? state bar = none := by
  rw [inOrder.fed.rejection_eq last, if_neg]
  intro same
  obtain ⟨previous, isLast, sameTime⟩ := Option.map_eq_some_iff.mp same
  have before := (List.pairwise_append.mp inOrder.ascending).2.2 previous (List.mem_of_getLast? isLast) bar
    (List.mem_singleton_self bar)
  rw [sameTime, Calendar.Instant.before_irrefl] at before
  contradiction

theorem after_lastTimestamp (inOrder : engine.InOrder bars) (venue : Venue σ) (world : World σ) :
    (engine.after venue world bars).state.lastTimestamp = lastOf bars :=
  inOrder.fed.lastTimestamp venue world

/-! ### Bars of a session -/

end Engine

/-- The bars in front of the first one without a local time. -/
def TradingSession.dated (session : TradingSession) (bars : List Bar) : List Bar :=
  bars.takeWhile fun bar => (session.localTime? bar.timestamp).isSome

theorem TradingSession.dated_eq_self_iff {session : TradingSession} {bars : List Bar} :
    session.dated bars = bars ↔ ∀ bar ∈ bars, (session.localTime? bar.timestamp).isSome = true :=
  List.takeWhile_eq_self_iff

theorem TradingSession.of_mem_dated {session : TradingSession} {bars : List Bar} {bar : Bar}
    (member : bar ∈ session.dated bars) : (session.localTime? bar.timestamp).isSome = true := by
  rw [dated] at member
  have inside := List.mem_takeWhile_imp member
  exact inside

def TradingSession.during (session : TradingSession) (bars : List Bar) : List Bar :=
  bars.filter fun bar => session.contains bar.timestamp

/-- How many of the bars lie outside of a session. -/
def TradingSession.outside (session : TradingSession) (bars : List Bar) : Nat :=
  bars.countP fun bar => !session.contains bar.timestamp

theorem TradingSession.during_inside {session : TradingSession} {bar : Bar}
    (inside : session.contains bar.timestamp = true) (bars : List Bar) :
    session.during (bars ++ [bar]) = session.during bars ++ [bar] := by
  simp [during, inside]

theorem TradingSession.during_outside {session : TradingSession} {bar : Bar}
    (isOutside : session.contains bar.timestamp = false) (bars : List Bar) :
    session.during (bars ++ [bar]) = session.during bars := by
  simp [during, isOutside]

/-- An outcome is counted alike, whatever the numbers of received and of skipped bars, if it is not that the bar was
skipped. -/
theorem Tally.count_seen {result : Except EngineError BarOutcome} (seen : result ≠ .ok .skipped) (tally : Tally)
    (received skipped : Nat) :
    ({ tally with received := received, skipped := skipped } : Tally).count result =
      { tally.count result with received := received + 1, skipped := skipped } := by
  match result with
  | .ok .skipped => contradiction
  | .ok (.moved ..) | .ok (.refused ..) | .ok (.stayed _) | .error _ => rfl

namespace Engine

variable {engine : Engine} {venue : Venue σ} {world : World σ} {bars front : List Bar} {bar : Bar}

/-- The run of the twin over the bars of the session, with the time of the last bar of all, and all bars counted. -/
def filtered (engine : Engine) (venue : Venue σ) (world : World σ) (bars : List Bar) : RunState σ :=
  let kept := engine.atAllHours.after venue world (engine.options.session.during bars)
  ⟨{ kept.state with lastTimestamp := lastOf bars }, kept.world,
    { kept.tally with received := bars.length, skipped := engine.options.session.outside bars }⟩

/-- A run in regular hours is the run at all hours over the bars of the session. -/
structure Filters (engine : Engine) (venue : Venue σ) (start : World σ) (bars : List Bar) : Prop where
  /-- The program stops at none of the bars, neither in regular hours nor at all hours. -/
  completes : engine.runTo? venue start bars = some (engine.after venue start bars)
  twinCompletes : engine.atAllHours.runTo? venue start (engine.options.session.during bars) =
    some (engine.atAllHours.after venue start (engine.options.session.during bars))
  /-- A bar of the session has the turn that it has at all hours behind the earlier bars of the session. Any other bar
  is skipped, and nothing is kept of it but its time. -/
  turns : ∀ front bar rest, bars = front ++ bar :: rest → engine.turnAfter venue start front bar =
    if engine.options.session.contains bar.timestamp then
      engine.atAllHours.turnAfter venue start (engine.options.session.during front) bar
    else
      ⟨.ok .skipped, { (engine.after venue start front).state with lastTimestamp := some bar.timestamp },
        (engine.after venue start front).world⟩
  /-- The last state differs in nothing but the time of the last bar. -/
  state : (engine.after venue start bars).state =
    { (engine.atAllHours.after venue start (engine.options.session.during bars)).state with
      lastTimestamp := lastOf bars }
  world : (engine.after venue start bars).world =
    (engine.atAllHours.after venue start (engine.options.session.during bars)).world
  /-- The report differs in nothing but the counts of received and of skipped bars. -/
  report : engine.run venue start bars =
    { engine.atAllHours.run venue start (engine.options.session.during bars) with
      received := bars.length
      skipped := engine.options.session.outside bars }

/-- A bar behind others in order is accepted by the twin behind those of the session. -/
theorem InOrder.during_accepted (inOrder : engine.InOrder (front ++ [bar])) (venue : Venue σ) (world : World σ) :
    engine.atAllHours.rejection?
      (engine.atAllHours.after venue world (engine.options.session.during front)).state bar = none := by
  have kept : engine.atAllHours.InOrder (engine.options.session.during front ++ [bar]) :=
    inOrder.atAllHours.sublist (List.filter_sublist.append (List.Sublist.refl [bar]))
  exact kept.accepted (after_lastTimestamp kept.initial venue world)

theorem runTo?_atAllHours (engine : Engine) (venue : Venue σ) (world : World σ) (bars : List Bar) :
    engine.atAllHours.runTo? venue world bars = some (engine.atAllHours.after venue world bars) := by
  induction bars using List.reverseRecOn with
  | nil => rfl
  | append_singleton front bar inductionHypothesis =>
    rw [runTo?_snoc, inductionHypothesis, Option.bind_some, runStep?_eq, stopsAt_atAllHours, after_snoc]
    rfl

section
variable (regular : engine.strategy.execution.regularHoursOnly = true)
include regular

/-! #### Where the program stops -/

theorem stopsAt_regular (inOrder : engine.InOrder (front ++ [bar])) (venue : Venue σ) (world : World σ) :
    engine.stopsAt (engine.after venue world front).state bar =
      (engine.options.session.localTime? bar.timestamp).isNone := by
  rw [stopsAt, inOrder.accepted (after_lastTimestamp inOrder.initial venue world), regular]
  rfl

/-- In regular hours, a run over bars in order comes to its end exactly if all bars have a local time. -/
theorem runTo?_regular (inOrder : engine.InOrder bars) (venue : Venue σ) (world : World σ) :
    engine.runTo? venue world bars =
      if bars.all fun bar => (engine.options.session.localTime? bar.timestamp).isSome then
        some (engine.after venue world bars)
      else none := by
  induction bars using List.reverseRecOn with
  | nil => rfl
  | append_singleton front bar inductionHypothesis =>
    rw [runTo?_snoc, inductionHypothesis inOrder.initial, List.all_append]
    by_cases dated : (front.all fun bar => (engine.options.session.localTime? bar.timestamp).isSome) = true
    · rw [dated, if_pos rfl, Option.bind_some, runStep?_eq, stopsAt_regular regular inOrder, after_snoc]
      cases dates : engine.options.session.localTime? bar.timestamp <;> simp [dates]
    · simp [dated]

/-! #### What the bars of the session do -/

theorem looksAt_regular (bar : Bar) : engine.looksAt bar = engine.options.session.contains bar.timestamp := by
  simp [looksAt, regular]

theorem turnAfter_filtered (inOrder : engine.InOrder (front ++ [bar]))
    (same : engine.after venue world front = engine.filtered venue world front) :
    engine.turnAfter venue world front bar =
      if engine.options.session.contains bar.timestamp then
        engine.atAllHours.turnAfter venue world (engine.options.session.during front) bar
      else
        ⟨.ok .skipped, { (engine.after venue world front).state with lastTimestamp := some bar.timestamp },
          (engine.after venue world front).world⟩ := by
  have accepted := inOrder.accepted (after_lastTimestamp inOrder.initial venue world)
  cases inside : engine.options.session.contains bar.timestamp with
  | false => exact processBar_skipped accepted ((looksAt_regular regular bar).trans inside)
  | true =>
    rw [if_pos rfl, turnAfter, turnAfter, processBar_looked accepted ((looksAt_regular regular bar).trans inside),
      processBar_looked (inOrder.during_accepted venue world) (looksAt_atAllHours engine bar), advance_atAllHours, same]
    rfl

theorem after_filtered (inOrder : engine.InOrder bars) (venue : Venue σ) (world : World σ) :
    engine.after venue world bars = engine.filtered venue world bars := by
  induction bars using List.reverseRecOn with
  | nil => rfl
  | append_singleton front bar inductionHypothesis =>
    have same := inductionHypothesis inOrder.initial
    have turned := turnAfter_filtered regular inOrder same
    rw [after_snoc_turn, turned]
    cases inside : engine.options.session.contains bar.timestamp with
    | false =>
      rw [if_neg Bool.false_ne_true, same, filtered, filtered, TradingSession.during_outside inside, lastOf_snoc]
      simp [TradingSession.outside, inside, Tally.count]
    | true =>
      have seen : (engine.atAllHours.turnAfter venue world (engine.options.session.during front) bar).result ≠
          .ok .skipped := processBar_seen (looksAt_atAllHours engine bar)
      have lastThere : (engine.atAllHours.turnAfter venue world (engine.options.session.during front)
          bar).state.lastTimestamp = some bar.timestamp :=
        processBar_lastTimestamp (inOrder.during_accepted venue world)
      have received : (front ++ [bar]).length = front.length + 1 := by simp
      have skipped : engine.options.session.outside (front ++ [bar]) = engine.options.session.outside front := by
        simp [TradingSession.outside, inside]
      rw [if_pos rfl, same, filtered, filtered, TradingSession.during_inside inside, after_snoc_turn, lastOf_snoc,
        ← lastThere, received, skipped]
      exact congrArg (RunState.mk _ _) (Tally.count_seen seen _ _ _)

theorem InOrder.filters (inOrder : engine.InOrder bars)
    (dated : ∀ bar ∈ bars, (engine.options.session.localTime? bar.timestamp).isSome = true) (venue : Venue σ)
    (world : World σ) : engine.Filters venue world bars := by
  have same := after_filtered regular inOrder venue world
  refine ⟨?_, runTo?_atAllHours engine venue world _, ?_, by rw [same, filtered], by rw [same, filtered], ?_⟩
  · rw [runTo?_regular regular inOrder, if_pos (List.all_eq_true.mpr dated)]
  · intro front bar rest split
    have upTo : engine.InOrder (front ++ [bar]) :=
      inOrder.sublist (by simp [split])
    exact turnAfter_filtered regular upTo (after_filtered regular upTo.initial venue world)
  · rw [run_eq_after, run_eq_after, same]
    rfl

end

end Engine

/-- Regular hours are a filter of bars and nothing else. Over every session, every venue and all bars in order, a run of
a compiled strategy in regular hours is the run at all hours over the bars of the session. It comes to its end if all
bars have a local time, and stops at the first one that has none if not. -/
theorem regular_hours_filter {registry : Registry} {json : Json} {strategy : Strategy} {options : EngineOptions}
    {engine : Engine} (compiled : Strategy.ofDocument registry json = .ok strategy)
    (regular : strategy.execution.regularHoursOnly = true)
    (bound : Engine.ofStrategy strategy registry options = .ok engine) :
    (∃ document, StrategyDocument.validate json = .ok document ∧
      document.atAllHours.compile registry = .ok strategy.atAllHours) ∧
    Engine.ofStrategy strategy.atAllHours registry options = .ok engine.atAllHours ∧
    ∀ (σ : Type) (venue : Venue σ) (world : World σ) (bars : List Bar),
      engine.InOrder bars →
        engine.Filters venue world (engine.options.session.dated bars) ∧
          ((engine.runTo? venue world bars).isSome = true ↔ engine.options.session.dated bars = bars) := by
  obtain ⟨document, valid, compiled⟩ := bind_eq_ok compiled
  obtain ⟨sameStrategy, _⟩ := Engine.ofStrategy_keeps bound
  refine ⟨⟨document, lift_eq_ok valid, StrategyDocument.compile_atAllHours compiled⟩,
    Engine.ofStrategy_atAllHours bound, fun σ venue world bars inOrder => ?_⟩
  have hours : engine.strategy.execution.regularHoursOnly = true := sameStrategy.symm ▸ regular
  constructor
  · apply Engine.InOrder.filters hours (inOrder.sublist (List.takeWhile_sublist _))
    exact fun bar member => TradingSession.of_mem_dated member
  · rw [Engine.runTo?_regular hours inOrder, TradingSession.dated_eq_self_iff, ← List.all_eq_true]
    split <;> simp_all

/-- Five hours before the first instant of all there is none. -/
example : TradingSession.regular.localTime? (.ofSeconds Calendar.Instant.minSeconds) = none := by decide

/-! ### The first minutes of two days -/

/-- The breakout strategy in regular hours. -/
def sessionDocument : Json :=
  match breakoutDocument with
  | .object fields => .object (fields ++ [("execution", .object [("rthOnly", .bool true)])])
  | other => other

/-- Live, in a session of the first five minutes of each day. -/
def sessionOptions : EngineOptions :=
  { liveOptions with session := ⟨0, .ofClock 0 0 0, .ofClock 0 5 0⟩ }

/-- Two rising bars in the session, one behind it that falls, and two more of the next session. -/
def sessionBars : List Bar :=
  risingBars.take 2 ++ [⟨"ACME", ⟨600, 0⟩, 102, 103, 40, 41, 1000⟩] ++
    [⟨"ACME", ⟨86460, 0⟩, 102, 104, 101, 103, 1000⟩, ⟨"ACME", ⟨86520, 0⟩, 103, 104, 90, 91, 1000⟩]

set_option maxRecDepth 100000 in
/-- The bar between two sessions does not move the strategy, although it falls below the stop. -/
theorem session_breakout_filters :
    ∃ strategy engine, Strategy.ofDocument .empty sessionDocument = .ok strategy ∧
      Engine.ofStrategy strategy .empty sessionOptions = .ok engine ∧
      engine.Filters PaperScript.plain.venue ⟨0, .empty⟩ sessionBars ∧
      [0, 1, 2, 3, 4, 5].map (fun count =>
        (engine.after PaperScript.plain.venue ⟨0, .empty⟩ (sessionBars.take count)).state.stage) =
          [.idle, .armed, .placed, .placed, .managing, .exited] := by
  have passed : Engine.passes .empty sessionDocument sessionOptions (fun engine =>
      engine.strategy.execution.regularHoursOnly && (engine.strategy.symbol == "ACME") && decide (
        [0, 1, 2, 3, 4, 5].map (fun count =>
          (engine.after PaperScript.plain.venue ⟨0, .empty⟩ (sessionBars.take count)).state.stage) =
            [.idle, .armed, .placed, .placed, .managing, .exited])) = true := by decide +kernel
  obtain ⟨strategy, engine, compiled, bound, tests⟩ := Engine.passes_binds passed
  obtain ⟨facts, stages⟩ := Bool.and_eq_true_iff.mp tests
  obtain ⟨regular, symbol⟩ := Bool.and_eq_true_iff.mp facts
  obtain ⟨sameStrategy, sameOptions⟩ := Engine.ofStrategy_keeps bound
  have inOrder : engine.InOrder sessionBars := by
    refine ⟨?_, by decide⟩
    rw [eq_of_beq symbol]
    decide
  obtain ⟨_, _, filters⟩ := regular_hours_filter compiled (sameStrategy ▸ regular) bound
  have dated : engine.options.session.dated sessionBars = sessionBars := by
    rw [sameOptions]
    decide +kernel
  have filtered := (filters _ PaperScript.plain.venue ⟨0, .empty⟩ sessionBars inOrder).1
  rw [dated] at filtered
  exact ⟨strategy, engine, compiled, bound, filtered, of_decide_eq_true stages⟩

end TradingStrategy

import TradingStrategy.Proofs.Feature.Rows
import TradingStrategy.Proofs.Run.Audit
import TradingStrategy.Proofs.Run.Hours
import TradingStrategy.Proofs.Run.Rounds

/-!
What the history of a run holds, and its clock.

Owns:
- `Engine.seen_leaves`: what every bar that is looked at leaves of the history, whatever comes of its step;
- `Engine.recorded`: the processed bars of some rounds, each with the snapshot that was computed for it;
- `Engine.Remembers`: the counter, the history and the clock against what was recorded;
- `history_holds_newest_bars`: they agree with it behind every round of a compiled strategy.

A bar that is turned away leaves all three as they were, and one that is skipped moves the clock alone. Any other bar
adds one snapshot and one to the counter, even if its step is refused or fails.
-/

namespace TradingStrategy

variable {σ : Type}

/-! ### The names of a plan -/

namespace Pipeline

variable {pipeline : Pipeline}

theorem mapM_bind_names {registry : Registry} {entries : List FeatureDescriptor} {steps : List Feature}
    (bound : entries.mapM (bind registry) = .ok steps) :
    steps.map Feature.name = entries.map FeatureDescriptor.name := by
  induction entries generalizing steps with
  | nil =>
    rw [← Except.ok.inj bound]
    rfl
  | cons entry rest inductionHypothesis =>
    rw [List.mapM_cons] at bound
    obtain ⟨first, isFirst, bound⟩ := bind_eq_ok bound
    obtain ⟨others, areOthers, bound⟩ := bind_eq_ok bound
    have named : first.name = entry.name := by
      unfold bind at isFirst
      split at isFirst
      · next found =>
        rw [← Except.ok.inj isFirst]
        exact (Registry.get?_name found).1
      · contradiction
    rw [← Except.ok.inj bound, List.map_cons, List.map_cons, named, inductionHypothesis areOthers]

/-- Every snapshot of a pipeline has the builtin names and the names of the plan that it was bound to, and no others. -/
theorem compute_planned {registry : Registry} {plan : List FeatureDescriptor}
    (bound : ofPlan plan registry = .ok pipeline) (bar : Bar) (past : List Snapshot) (name : String) :
    ((pipeline.compute bar past).get? name).isSome ↔
      isBuiltin name = true ∨ name ∈ plan.map FeatureDescriptor.name := by
  obtain ⟨steps, areSteps, bound⟩ := bind_eq_ok bound
  rw [compute_get?, ← Except.ok.inj bound, mapM_bind_names areSteps]
  -- The entries that are taken from the bar have builtin names.
  constructor
  · rintro (builtin | among)
    · exact .inl builtin
    · obtain ⟨entry, member, named⟩ := List.mem_map.mp among
      exact .inr (List.mem_map.mpr ⟨entry, (List.mem_filter.mp member).1, named⟩)
  · rintro (builtin | among)
    · exact .inl builtin
    · obtain ⟨entry, member, rfl⟩ := List.mem_map.mp among
      cases taken : isTaken entry with
      | true => exact .inl (Bool.and_eq_true_iff.mp taken).2
      | false => exact .inr (List.mem_map_of_mem (List.mem_filter.mpr ⟨member, by simp [taken]⟩))

end Pipeline

namespace Engine

/-! ### What one bar leaves -/

section
variable {engine : Engine} {venue : Venue σ} {state : EngineState} {world : World σ} {bar : Bar}

/-- Whatever comes of the step of a bar that is looked at, the bar is processed, and the history, the counter and the
clock are those with which it was looked at. -/
theorem seen_leaves (accepted : engine.rejection? state bar = none) (looks : engine.looksAt bar = true) :
    let turn := engine.processBar venue state bar world
    turn.isProcessed = true ∧
      turn.state.history = state.history.push (engine.pipeline.compute bar state.history.snapshots) ∧
      turn.state.barsProcessed = state.barsProcessed + 1 ∧
      turn.state.lastTimestamp = some bar.timestamp := by
  have leaves := leaves_processBar engine venue state bar world
  generalize engine.processBar venue state bar world = turn at leaves
  cases leaves with
  | mismatched foreign => simp [rejection?, foreign] at accepted
  | late previous known notAfter =>
    unfold rejection? at accepted
    split at accepted
    · contradiction
    · simp [known, notAfter] at accepted
  | skipped closed =>
    rw [looks] at closed
    contradiction
  | stayed | refused => exact ⟨rfl, rfl, rfl, rfl⟩
  | failed error inside => exact ⟨by simp [Turn.isProcessed, inside], rfl, rfl, rfl⟩
  | moved transition =>
    simp only [EngineState.commit_eq]
    cases transition.target <;> exact ⟨rfl, rfl, rfl, rfl⟩

/-- An accepted bar is later than the last one. -/
theorem accepted_later {previous : Calendar.Instant} (accepted : engine.rejection? state bar = none)
    (known : state.lastTimestamp = some previous) : previous.before bar.timestamp = true := by
  unfold rejection? at accepted
  split at accepted
  · contradiction
  · rw [known] at accepted
    simpa using accepted

end

/-! ### What is recorded -/

/-- The processed bars of some rounds behind a state, first to last, each with the snapshot that is computed for it over
the history that it finds. -/
def recordedFrom (engine : Engine) (venue : Venue σ) : EngineState → List (Round σ) → List (Bar × Snapshot)
  | _, [] => []
  | state, round :: rest =>
      let turn := engine.turn venue state round
      let later := engine.recordedFrom venue turn.state rest
      if turn.isProcessed then (round.bar, engine.pipeline.compute round.bar state.history.snapshots) :: later
      else later

/-- The processed bars of some rounds with their snapshots. -/
def recorded (engine : Engine) (venue : Venue σ) (rounds : List (Round σ)) : List (Bar × Snapshot) :=
  engine.recordedFrom venue engine.startState rounds

variable {engine : Engine} {venue : Venue σ}

theorem recorded_snoc (rounds : List (Round σ)) (round : Round σ) :
    engine.recorded venue (rounds ++ [round]) = engine.recorded venue rounds ++
      if (engine.turnIn venue rounds round).isProcessed then
        [(round.bar, engine.pipeline.compute round.bar (engine.stateAfter venue rounds).history.snapshots)]
      else [] := by
  have folded : ∀ (rounds : List (Round σ)) (state : EngineState),
      engine.recordedFrom venue state (rounds ++ [round]) = engine.recordedFrom venue state rounds ++
        let found := rounds.foldl (fun state round => (engine.turn venue state round).state) state
        if (engine.turn venue found round).isProcessed then
          [(round.bar, engine.pipeline.compute round.bar found.history.snapshots)]
        else [] := by
    intro rounds
    induction rounds with
    | nil => exact fun _ => rfl
    | cons first rest inductionHypothesis =>
      intro state
      rw [List.cons_append, recordedFrom, recordedFrom, inductionHypothesis, List.foldl_cons]
      split <;> rfl
  exact folded rounds engine.startState

/-- What a state carries of the bars that were recorded so far. -/
structure Carries (engine : Engine) (records : List (Bar × Snapshot)) (state : EngineState) : Prop where
  counted : state.barsProcessed = records.length
  capacity : state.history.capacity = (History.empty engine.options.historyBars).capacity
  newest : state.history.snapshots = (records.map Prod.snd).reverse.take state.history.capacity
  computed : records.map Prod.snd =
    engine.pipeline.snapshots (.empty engine.options.historyBars) (records.map Prod.fst)
  dated : ∀ record ∈ records, record.2.timestamp = record.1.timestamp
  ordered : (records.map Prod.snd).Pairwise fun older newer => older.timestamp.before newer.timestamp = true
  past : ∀ record ∈ records, ∃ last, state.lastTimestamp = some last ∧ record.2.timestamp.notAfter last = true

theorem startState_carries (engine : Engine) : engine.Carries [] engine.startState where
  counted := rfl
  capacity := rfl
  newest := List.take_nil.symm
  computed := rfl
  dated := by simp
  ordered := .nil
  past := by simp

section Step

variable {records : List (Bar × Snapshot)} {state next : EngineState} {bar : Bar}
  (carries : engine.Carries records state)
include carries

/-- The clock is moved by a bar that is skipped, and nothing else is. -/
theorem Carries.passed (accepted : engine.rejection? state bar = none) (sameHistory : next.history = state.history)
    (sameCount : next.barsProcessed = state.barsProcessed) (clock : next.lastTimestamp = some bar.timestamp) :
    engine.Carries records next where
  counted := sameCount.trans carries.counted
  capacity := by rw [sameHistory, carries.capacity]
  newest := by rw [sameHistory, carries.newest]
  computed := carries.computed
  dated := carries.dated
  ordered := carries.ordered
  past record member := by
    obtain ⟨last, known, notLater⟩ := carries.past record member
    have earlier := Calendar.Instant.before_of_notAfter notLater (accepted_later accepted known)
    exact ⟨bar.timestamp, clock, Calendar.Instant.notAfter_of_before earlier⟩

/-- One more snapshot stands in front of the others, and it is later than all of them. -/
theorem Carries.added (accepted : engine.rejection? state bar = none)
    (pushed : next.history = state.history.push (engine.pipeline.compute bar state.history.snapshots))
    (counted : next.barsProcessed = state.barsProcessed + 1) (clock : next.lastTimestamp = some bar.timestamp) :
    engine.Carries (records ++ [(bar, engine.pipeline.compute bar state.history.snapshots)]) next := by
  have sameCapacity : next.history.capacity = state.history.capacity := by rw [pushed, History.push]
  have earlier : ∀ record ∈ records, record.2.timestamp.before bar.timestamp = true := by
    intro record member
    obtain ⟨last, known, notLater⟩ := carries.past record member
    exact Calendar.Instant.before_of_notAfter notLater (accepted_later accepted known)
  have dated := engine.pipeline.compute_timestamp bar state.history.snapshots
  have empty : (History.empty engine.options.historyBars).snapshots =
      ([] : List Snapshot).take (History.empty engine.options.historyBars).capacity := List.take_nil.symm
  constructor
  · simp [counted, carries.counted]
  · rw [sameCapacity, carries.capacity]
  · rw [sameCapacity, pushed, History.push_newest carries.newest]
    simp
  · rw [List.map_append, List.map_append, List.map_singleton, List.map_singleton,
      Pipeline.snapshots_snoc empty, ← carries.computed, List.append_nil, ← carries.capacity,
      ← carries.newest]
  · simpa [or_imp, forall_and, dated] using carries.dated
  · simp only [List.map_append, List.map_singleton, List.pairwise_append, List.pairwise_singleton, true_and]
    refine ⟨carries.ordered, ?_⟩
    intro older member newer isLast
    obtain ⟨record, among, rfl⟩ := List.mem_map.mp member
    rw [List.mem_singleton.mp isLast, dated]
    exact earlier record among
  · intro record member
    refine ⟨bar.timestamp, clock, ?_⟩
    rcases List.mem_append.mp member with member | isLast
    · exact Calendar.Instant.notAfter_of_before (earlier record member)
    · rw [List.mem_singleton.mp isLast, dated]
      exact Calendar.Instant.notAfter_refl _

theorem Carries.turn (round : Round σ) :
    engine.Carries (records ++ if (engine.turn venue state round).isProcessed then
      [(round.bar, engine.pipeline.compute round.bar state.history.snapshots)] else [])
      (engine.turn venue state round).state := by
  unfold Engine.turn
  match why : engine.rejection? state round.bar with
  | some error =>
    have unprocessed : (Turn.mk (.error error) state round.world).isProcessed = false := by
      simp [Turn.isProcessed, rejection?_isRejection why]
    rw [processBar_rejected why, unprocessed, if_neg Bool.false_ne_true, List.append_nil]
    exact carries
  | none =>
    cases looks : engine.looksAt round.bar with
    | false =>
      rw [processBar_skipped why looks, if_neg (by simp [Turn.isProcessed]), List.append_nil]
      exact carries.passed why rfl rfl rfl
    | true =>
      obtain ⟨processed, pushed, counted, clock⟩ := @seen_leaves σ engine venue state round.world round.bar why looks
      rw [if_pos processed]
      exact carries.added why pushed counted clock

end Step

theorem stateAfter_carries (engine : Engine) (venue : Venue σ) (rounds : List (Round σ)) :
    engine.Carries (engine.recorded venue rounds) (engine.stateAfter venue rounds) := by
  induction rounds using List.reverseRecOn with
  | nil => exact startState_carries engine
  | append_singleton rounds round inductionHypothesis =>
    rw [recorded_snoc, stateAfter_snoc]
    exact inductionHypothesis.turn round

/-- The counter, the history and the clock of a state against what was recorded. -/
structure Remembers (engine : Engine) (records : List (Bar × Snapshot)) (state : EngineState) : Prop where
  counted : state.barsProcessed = records.length
  size : state.history.size = min state.barsProcessed engine.options.historyBars
  /-- The snapshot at an offset is the one that was computed for the bar so many processed bars back. -/
  offset : ∀ offset < state.history.size,
    ∃ bar snapshot, records.reverse[offset]? = some (bar, snapshot) ∧ state.history.get? offset = some snapshot ∧
      snapshot.timestamp = bar.timestamp
  /-- The snapshots are those of the processed bars alone, over a history of the same length. -/
  computed : records.map Prod.snd =
    engine.pipeline.snapshots (.empty engine.options.historyBars) (records.map Prod.fst)
  decreasing : ∀ (near far : Nat) (newer older : Snapshot), near < far → state.history.get? near = some newer →
    state.history.get? far = some older → older.timestamp.before newer.timestamp = true
  past : ∀ snapshot ∈ state.history.snapshots,
    ∃ last, state.lastTimestamp = some last ∧ snapshot.timestamp.notAfter last = true
  names : ∀ snapshot ∈ state.history.snapshots, ∀ name, (snapshot.get? name).isSome ↔
    isBuiltin name = true ∨ name ∈ engine.strategy.featurePlan.map FeatureDescriptor.name

section Remembering

variable {records : List (Bar × Snapshot)} {state : EngineState} (carries : engine.Carries records state)
include carries

theorem Carries.recorded_of_mem {snapshot : Snapshot} (member : snapshot ∈ state.history.snapshots) :
    ∃ record ∈ records, record.2 = snapshot := by
  rw [carries.newest] at member
  exact List.mem_map.mp (List.mem_reverse.mp (List.mem_of_mem_take member))

theorem Carries.decreasing : state.history.snapshots.Pairwise fun newer older =>
    older.timestamp.before newer.timestamp = true := by
  rw [carries.newest]
  exact (List.pairwise_reverse.mpr carries.ordered).sublist (List.take_sublist _ _)

theorem Carries.remembers {registry : Registry}
    (bound : Pipeline.ofPlan engine.strategy.featurePlan registry = .ok engine.pipeline)
    (enough : 1 ≤ engine.options.historyBars) (inRange : engine.options.historyBars ≤ maxHistory) :
    engine.Remembers records state where
  counted := carries.counted
  size := by
    have capacity : state.history.capacity = engine.options.historyBars := by
      simp only [carries.capacity, History.empty]
      omega
    rw [History.size, carries.newest, List.length_take, List.length_reverse, List.length_map, capacity,
      carries.counted, Nat.min_comm]
  offset := by
    intro offset inside
    rw [History.size, carries.newest, List.length_take, List.length_reverse, List.length_map, Nat.lt_min] at inside
    have long : offset < records.reverse.length := by simpa using inside.2
    obtain ⟨⟨bar, snapshot⟩, found⟩ : ∃ record, records.reverse[offset]? = some record :=
      ⟨_, List.getElem?_eq_getElem long⟩
    refine ⟨bar, snapshot, found, ?_, ?_⟩
    · rw [History.get?, carries.newest, List.getElem?_take_of_lt inside.1, ← List.map_reverse, List.getElem?_map, found]
      rfl
    · exact carries.dated _ (List.mem_reverse.mp (List.mem_of_getElem? found))
  computed := carries.computed
  decreasing := by
    intro near far newer older closer atNear atFar
    obtain ⟨nearInside, rfl⟩ := List.getElem?_eq_some_iff.mp atNear
    obtain ⟨farInside, rfl⟩ := List.getElem?_eq_some_iff.mp atFar
    exact List.pairwise_iff_getElem.mp carries.decreasing near far nearInside farInside closer
  past := by
    intro snapshot member
    obtain ⟨record, among, rfl⟩ := carries.recorded_of_mem member
    exact carries.past record among
  names := by
    intro snapshot member name
    obtain ⟨record, among, rfl⟩ := carries.recorded_of_mem member
    obtain ⟨bar, past, same⟩ : ∃ bar past, record.2 = engine.pipeline.compute bar past := by
      apply Pipeline.mem_snapshots
      rw [← carries.computed]
      exact List.mem_map_of_mem among
    rw [same]
    exact Pipeline.compute_planned bound bar past name

end Remembering

theorem ofStrategy_pipeline {strategy : Strategy} {registry : Registry} {options : EngineOptions}
    (bound : ofStrategy strategy registry options = .ok engine) :
    Pipeline.ofPlan strategy.featurePlan registry = .ok engine.pipeline := by
  unfold ofStrategy at bound
  split at bound
  · next found =>
    rw [← Except.ok.inj bound]
    exact found
  · contradiction

end Engine

/-- A compiled strategy is bound to its registry, and behind any rounds, whatever their bars and whatever the venue
answers, the history holds the newest snapshots of the processed bars, as many as there are or as it may hold. They are
dated by their bars, latest first and none behind the clock, and they have the names of the feature plan. -/
theorem history_holds_newest_bars {registry : Registry} {json : Json} {strategy : Strategy} {options : EngineOptions}
    (compiled : Strategy.ofDocument registry json = .ok strategy) (enough : 1 ≤ options.historyBars)
    (inRange : options.historyBars ≤ maxHistory) :
    ∃ engine, Engine.ofStrategy strategy registry options = .ok engine ∧
      ∀ (σ : Type) (venue : Venue σ) (rounds : List (Round σ)),
        engine.Remembers (engine.recorded venue rounds) (engine.stateAfter venue rounds) := by
  obtain ⟨blueprint, follows, _, planned⟩ := Strategy.ofDocument_follows compiled
  obtain ⟨engine, bound, _⟩ := Engine.ofStrategy_serves follows planned options
  obtain ⟨rfl, rfl⟩ := Engine.ofStrategy_keeps bound
  refine ⟨engine, bound, fun σ venue rounds => ?_⟩
  exact (engine.stateAfter_carries venue rounds).remembers (Engine.ofStrategy_pipeline bound) enough inRange

/-! ### Two days with bars that are turned away -/

/-- Rounds of a paper venue that forgets its orders in front of every bar. -/
def forgetfulRounds (bars : List Bar) : List (Round PaperBook) :=
  bars.map fun bar => ⟨bar, ⟨0, .empty⟩⟩

/-- The bars of two sessions, with one of another symbol and one that is late in the first session, and one behind the
second session. -/
def disturbedBars : List Bar :=
  sessionBars.take 2 ++ [⟨"EMCA", ⟨150, 0⟩, 1, 1, 1, 1, 1⟩, ⟨"ACME", ⟨90, 0⟩, 101, 102, 100, 101, 1000⟩] ++
    sessionBars.drop 2 ++ [⟨"ACME", ⟨87000, 0⟩, 91, 92, 90, 91, 1000⟩]

set_option maxRecDepth 100000 in
/-- Of eight bars four are processed, and a history of two holds the two of the second session. -/
theorem disturbed_history_holds_newest_bars :
    ∃ strategy engine, Strategy.ofDocument .empty sessionDocument = .ok strategy ∧
      1 ≤ 2 ∧ 2 ≤ maxHistory ∧
      Engine.ofStrategy strategy .empty { sessionOptions with historyBars := 2 } = .ok engine ∧
      (∀ (σ : Type) (venue : Venue σ) (rounds : List (Round σ)),
        engine.Remembers (engine.recorded venue rounds) (engine.stateAfter venue rounds)) ∧
      let state := engine.stateAfter PaperScript.plain.venue (forgetfulRounds disturbedBars)
      state.barsProcessed = 4 ∧ state.history.snapshots.map Snapshot.timestamp = [⟨86520, 0⟩, ⟨86460, 0⟩] ∧
        state.lastTimestamp = some ⟨87000, 0⟩ := by
  have passed : Engine.passes .empty sessionDocument { sessionOptions with historyBars := 2 } (fun engine =>
      let state := engine.stateAfter PaperScript.plain.venue (forgetfulRounds disturbedBars)
      decide (state.barsProcessed = 4 ∧ state.history.snapshots.map Snapshot.timestamp = [⟨86520, 0⟩, ⟨86460, 0⟩] ∧
        state.lastTimestamp = some ⟨87000, 0⟩)) = true := by decide +kernel
  obtain ⟨strategy, engine, compiled, bound, tests⟩ := Engine.passes_binds passed
  have enough : 1 ≤ ({ sessionOptions with historyBars := 2 } : EngineOptions).historyBars := Nat.le_succ 1
  have short : 2 ≤ maxHistory := by decide
  obtain ⟨other, otherBound, remembers⟩ := history_holds_newest_bars compiled enough short
  rw [bound] at otherBound
  obtain rfl := Except.ok.inj otherBound
  exact ⟨strategy, engine, compiled, Nat.le_succ 1, short, bound, remembers, of_decide_eq_true tests⟩

end TradingStrategy

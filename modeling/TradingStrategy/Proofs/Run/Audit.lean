import TradingStrategy.Proofs.Calendar.Instants
import TradingStrategy.Proofs.Run.Lifecycle

/-!
The audit log and the report.

Owns:
- `walk`: where moves lead, each of them from where the one before it has ended;
- `Engine.Writes`: the entries that a bar writes in the log, next to its result;
- `Balances`: the counts of a report against the entries of a log;
- `Chronicle`: the times in a log against those of the bars;
- `Engine.Audited`: what the log and the report tell of a run;
- `log_tells_run`: they tell it of every run of a compiled strategy.

The counts are kept by the run and the entries by the engine. One entry at most tells the result of a bar, and every
result but a bar that was skipped, has stayed or was turned away has such an entry.
-/

namespace TradingStrategy

variable {σ : Type}

/-! ### Moves and kinds in a log -/

def LogEntry.move? (entry : LogEntry) : Option (Stage × Stage) :=
  match entry.event with
  | .transition source target => some (source, target)
  | _ => none

/-- The moves that a log tells, in their order. -/
def movesOf (log : List LogEntry) : List (Stage × Stage) :=
  log.filterMap LogEntry.move?

def countOf (kind : LogKind) (log : List LogEntry) : Nat :=
  log.countP fun entry => entry.event.kind == kind

/-- Every transition is told in the stage that it leads to. -/
def ToldInTarget (log : List LogEntry) : Prop :=
  ∀ entry ∈ log, ∀ source target, entry.event = .transition source target → entry.stage = target

/-- The stage to which moves lead, if each of them leaves the stage that is reached in front of it. -/
def walk (stage : Stage) : List (Stage × Stage) → Option Stage
  | [] => some stage
  | (source, target) :: rest => if source = stage then walk target rest else none

theorem movesOf_append (log entries : List LogEntry) : movesOf (log ++ entries) = movesOf log ++ movesOf entries :=
  List.filterMap_append

theorem countOf_append (kind : LogKind) (log entries : List LogEntry) :
    countOf kind (log ++ entries) = countOf kind log + countOf kind entries :=
  List.countP_append

theorem walk_append (stage : Stage) (moves more : List (Stage × Stage)) :
    walk stage (moves ++ more) = (walk stage moves).bind fun reached => walk reached more := by
  induction moves generalizing stage with
  | nil => rfl
  | cons first rest inductionHypothesis =>
    obtain ⟨source, target⟩ := first
    rw [List.cons_append, walk, walk]
    split
    · exact inductionHypothesis target
    · rfl

/-! ### Entries that tell no result -/

/-- The kinds of entries that tell the result of a bar. -/
def LogKind.tells : LogKind → Bool
  | transition | refusal | error => true
  | action | order | timer => false

/-- No entry tells a result. -/
def IsQuiet (events : List LogEvent) : Prop :=
  ∀ event ∈ events, event.kind.tells = false

theorem IsQuiet.snoc {events : List LogEvent} (quiet : IsQuiet events) {event : LogEvent}
    (more : event.kind.tells = false) : IsQuiet (events ++ [event]) := by
  intro other member
  rcases List.mem_append.mp member with inside | last
  · exact quiet other inside
  · rw [List.mem_singleton.mp last]
    exact more

theorem IsQuiet.movesOf {entries : List LogEntry} (quiet : IsQuiet (entries.map LogEntry.event)) :
    movesOf entries = [] := by
  apply List.filterMap_eq_nil_iff.mpr
  intro entry member
  have kind := quiet entry.event (List.mem_map_of_mem member)
  unfold LogEntry.move?
  split
  · next same =>
    rw [same] at kind
    contradiction
  · rfl

theorem IsQuiet.countOf {entries : List LogEntry} (quiet : IsQuiet (entries.map LogEntry.event)) {kind : LogKind}
    (tells : kind.tells = true) : countOf kind entries = 0 := by
  apply List.countP_eq_zero.mpr
  intro entry member same
  have silent := quiet entry.event (List.mem_map_of_mem member)
  rw [eq_of_beq same, tells] at silent
  contradiction

theorem EngineState.tickEntries_quiet (state : EngineState) (timestamp : Calendar.Instant) :
    IsQuiet ((state.tickEntries timestamp).map LogEntry.event) ∧
      ∀ entry ∈ state.tickEntries timestamp, entry.timestamp = timestamp := by
  unfold tickEntries
  split <;> simp [IsQuiet, LogEvent.kind, LogKind.tells]

namespace Engine

variable {engine : Engine} {blueprint : Blueprint} {venue : Venue σ} {state : EngineState} {world after : World σ}

theorem perform_quiet {staged left : Staged} {action : Action} (quiet : IsQuiet staged.events)
    (performed : engine.perform venue state staged action world = (.staged left, after)) : IsQuiet left.events := by
  unfold perform at performed
  split at performed
  · rw [← Attempt.staged.inj (Prod.mk.inj performed).1]
    exact quiet.snoc rfl
  · rw [← Attempt.staged.inj (Prod.mk.inj performed).1]
    exact quiet
  · split at performed
    · simp at performed
    · unfold submitPlan at performed
      split at performed
      · simp at performed
      · split at performed
        · simp at performed
        · rw [← Attempt.staged.inj (Prod.mk.inj performed).1]
          exact (quiet.snoc rfl).snoc rfl
  · split at performed
    · simp at performed
    · rw [← Attempt.staged.inj (Prod.mk.inj performed).1]
      exact quiet.snoc rfl

theorem performAll_quiet {staged left : Staged} {actions : List Action} (quiet : IsQuiet staged.events)
    (performed : engine.performAll venue state staged actions world = (.staged left, after)) :
    IsQuiet left.events := by
  induction actions generalizing staged world with
  | nil =>
    rw [performAll] at performed
    rw [← Attempt.staged.inj (Prod.mk.inj performed).1]
    exact quiet
  | cons first rest inductionHypothesis =>
    rw [performAll] at performed
    split at performed
    · next step => exact inductionHypothesis (perform_quiet quiet step) performed
    · simp at performed
    · simp at performed

theorem prepare_events {target : Stage} {staged : Staged} (prepared : engine.prepare state target = .ok staged) :
    staged.events = [] := by
  unfold prepare at prepared
  split at prepared
  · split at prepared
    · rw [← Except.ok.inj prepared]
    · split at prepared
      · rw [← Except.ok.inj prepared]
      · contradiction
  · rw [← Except.ok.inj prepared]

end Engine

/-! ### What a bar writes -/

namespace Turn

/-- The bar was turned away for its time. -/
def isLate (turn : Turn σ) : Bool :=
  match turn.result with
  | .error (.outOfOrder ..) => true
  | _ => false

def isStayed (turn : Turn σ) : Bool :=
  match turn.result with
  | .ok (.stayed _) => true
  | _ => false

/-- What the log tells of the result. -/
def event? (turn : Turn σ) : Option LogEvent :=
  match turn.result with
  | .ok (.moved source target) => some (.transition source target)
  | .ok (.refused _ reason) => some (.refused reason)
  | .ok .skipped | .ok (.stayed _) => none
  | .error error => if error.isRejection then none else some (.failed error)

theorem moved_of_event? {turn : Turn σ} {source target : Stage}
    (told : turn.event? = some (.transition source target)) : turn.result = .ok (.moved source target) := by
  unfold event? at told
  split at told
  · next same =>
    obtain ⟨rfl, rfl⟩ := LogEvent.transition.inj (Option.some.inj told)
    exact same
  · simp at told
  · simp at told
  · simp at told
  · split at told <;> simp at told

/-- The entry that tells the result, in the stage that the bar leaves. -/
def entries (turn : Turn σ) (timestamp : Calendar.Instant) : List LogEntry :=
  turn.event?.toList.map fun event => ⟨timestamp, turn.state.stage, event⟩

end Turn

namespace Engine

/-- A bar writes one entry at most that tells its result, and around it what its tick and its actions have to say. -/
structure Writes (state : EngineState) (bar : Bar) (turn : Turn σ) (front back : List LogEntry) : Prop where
  appended : turn.state.log = state.log ++ (front ++ turn.entries bar.timestamp ++ back)
  quietFront : IsQuiet (front.map LogEntry.event)
  quietBack : IsQuiet (back.map LogEntry.event)
  timestamps : ∀ entry ∈ front ++ back, entry.timestamp = bar.timestamp
  arrived : ∀ source target, turn.result = .ok (.moved source target) → turn.state.stage = target
  own : ∀ expected found, turn.result ≠ .error (.symbolMismatch expected found)
  late : turn.isLate = true → ∃ previous ∈ state.lastTimestamp, previous.before bar.timestamp = false

variable {engine : Engine} {blueprint : Blueprint} {venue : Venue σ} {state : EngineState} {world after : World σ}
  {bar : Bar}

/-- What a bar has to say apart from its result comes from the tick. -/
theorem writes_ticked {turn : Turn σ} (appended : turn.state.log =
      state.log ++ (state.tickEntries bar.timestamp ++ turn.entries bar.timestamp ++ []))
    (unmoved : ∀ source target, turn.result ≠ .ok (.moved source target))
    (inside : ∀ error, turn.result = .error error → error.isRejection = false) :
    Writes state bar turn (state.tickEntries bar.timestamp) [] := by
  obtain ⟨quiet, timestamps⟩ := state.tickEntries_quiet bar.timestamp
  refine ⟨appended, quiet, by simp [IsQuiet], by simpa using timestamps, ?_, ?_, ?_⟩
  · exact fun source target moved => absurd moved (unmoved source target)
  · exact fun expected found same => absurd (inside _ same) (by simp [EngineError.isRejection])
  · intro late
    unfold Turn.isLate at late
    split at late
    · next same => exact absurd (inside _ same) (by simp [EngineError.isRejection])
    · contradiction

theorem Leaves.writes {turn : Turn σ} (leaves : engine.Leaves venue state bar world turn)
    (own : bar.symbol = engine.strategy.symbol) : ∃ front back, Writes state bar turn front back := by
  cases leaves with
  | mismatched foreign => exact absurd own foreign
  | late previous known notAfter =>
    exact ⟨[], [], by simp [Turn.entries, Turn.event?, EngineError.isRejection], by simp [IsQuiet], by simp [IsQuiet],
      by simp, by simp, by simp, fun _ => ⟨previous, known, notAfter⟩⟩
  | skipped closed =>
    exact ⟨[], [], by simp [Turn.entries, Turn.event?], by simp [IsQuiet], by simp [IsQuiet], by simp, by simp, by simp,
      by simp [Turn.isLate]⟩
  | stayed after => exact ⟨_, _, writes_ticked (by simp [looked, Turn.entries, Turn.event?]) (by simp) (by simp)⟩
  | refused reason after =>
    exact ⟨_, _, writes_ticked (by simp [looked, Turn.entries, Turn.event?]) (by simp) (by simp)⟩
  | failed error inside after =>
    exact ⟨_, _, writes_ticked (by simp [looked, Turn.entries, Turn.event?, inside]) (by simp) (by simpa using inside)⟩
  | moved transition prepared staged between after leaves preparation performed =>
    obtain ⟨quiet, timestamps⟩ := state.tickEntries_quiet bar.timestamp
    have source : transition.source = state.stage := by
      simpa using (List.mem_filter.mp leaves).2
    have quietEvents : IsQuiet staged.events :=
      performAll_quiet (by simp [IsQuiet, prepare_events preparation]) performed
    have entered : ((engine.looked state bar).enter transition.target engine.strategy.execution.entryTimeoutBars
        staged).log = state.log ++ state.tickEntries bar.timestamp := by
      cases transition.target <;> rfl
    refine ⟨state.tickEntries bar.timestamp,
      staged.events.map fun event => ⟨bar.timestamp, transition.target, event⟩, ?_, quiet, ?_, ?_, ?_, by simp, ?_⟩
    · simp [EngineState.commit_eq, entered, EngineState.enter_stage, Turn.entries, Turn.event?, source]
    · rw [List.map_map]
      exact (List.map_id staged.events).symm ▸ quietEvents
    · intro entry member
      rcases List.mem_append.mp member with ticked | noted
      · exact timestamps entry ticked
      · obtain ⟨event, _, rfl⟩ := List.mem_map.mp noted
        rfl
    · intro _ target moved
      simp only [Except.ok.injEq, BarOutcome.moved.injEq] at moved
      rw [EngineState.commit_eq]
      exact (EngineState.enter_stage ..).trans moved.2
    · intro late
      contradiction

theorem processBar_writes (own : bar.symbol = engine.strategy.symbol) :
    ∃ front back, Writes state bar (engine.processBar venue state bar world) front back := by
  match why : engine.rejection? state bar with
  | some error =>
    rw [processBar_rejected why]
    have leaves : Leaves engine venue state bar world _ := rejected_leaves why
    exact leaves.writes own
  | none =>
    cases looks : engine.looksAt bar with
    | false =>
      rw [processBar_skipped why looks]
      have leaves : Leaves engine venue state bar world _ := .skipped looks
      exact leaves.writes own
    | true =>
      rw [processBar_looked why looks]
      exact (advance_leaves engine venue state bar world).writes own

/-! ### What the entries of a bar tell -/

variable {front back : List LogEntry} {turn : Turn σ}

theorem Writes.moves (writes : Writes state bar turn front back) :
    movesOf turn.state.log = movesOf state.log ++ turn.move?.toList := by
  rw [writes.appended, movesOf_append, movesOf_append, movesOf_append, writes.quietFront.movesOf,
    writes.quietBack.movesOf, List.nil_append, List.append_nil]
  congr 1
  unfold Turn.entries Turn.event? Turn.move?
  cases turn.result with
  | ok outcome => cases outcome <;> rfl
  | error error => cases inside : error.isRejection <;> simp [inside, movesOf, LogEntry.move?]

theorem Writes.counts (writes : Writes state bar turn front back) {kind : LogKind} (tells : kind.tells = true) :
    countOf kind turn.state.log = countOf kind state.log + countOf kind (turn.entries bar.timestamp) := by
  rw [writes.appended, countOf_append, countOf_append, countOf_append, writes.quietFront.countOf tells,
    writes.quietBack.countOf tells, Nat.zero_add, Nat.add_zero]

/-- All that a bar adds to the log has the time of the bar. -/
theorem Writes.extends (writes : Writes state bar turn front back) :
    ∃ added, turn.state.log = state.log ++ added ∧ ∀ entry ∈ added, entry.timestamp = bar.timestamp := by
  refine ⟨_, writes.appended, fun entry member => ?_⟩
  simp only [List.mem_append] at member
  rcases member with (before | own) | behind
  · exact writes.timestamps entry (List.mem_append_left back before)
  · obtain ⟨event, _, rfl⟩ := List.mem_map.mp own
    rfl
  · exact writes.timestamps entry (List.mem_append_right front behind)

/-- An entry of a transition is written in the stage that the transition leads to. -/
theorem Writes.arrives (writes : Writes state bar turn front back)
    (arrived : ToldInTarget state.log) : ToldInTarget turn.state.log := by
  have untold {entries : List LogEntry} (quiet : IsQuiet (entries.map LogEntry.event)) {entry : LogEntry}
      (member : entry ∈ entries) (source target : Stage) : entry.event ≠ .transition source target := by
    intro told
    have silent := quiet entry.event (List.mem_map_of_mem member)
    rw [told] at silent
    contradiction
  intro entry member source target told
  rw [writes.appended] at member
  simp only [List.mem_append] at member
  rcases member with old | (before | own) | behind
  · exact arrived entry old source target told
  · exact absurd told (untold writes.quietFront before source target)
  · obtain ⟨event, known, rfl⟩ := List.mem_map.mp own
    refine writes.arrived source target (Turn.moved_of_event? ?_)
    rw [← told]
    exact Option.mem_toList.mp known
  · exact absurd told (untold writes.quietBack behind source target)

end Engine

/-! ### Counts -/

theorem Tally.count_received (tally : Tally) (result : Except EngineError BarOutcome) :
    (tally.count result).received = tally.received + 1 := by
  match result with
  | .ok .skipped | .ok (.moved ..) | .ok (.refused ..) | .ok (.stayed _) | .error _ => rfl

/-- The counts of a report against the entries of a log and the numbers of bars that were late and that have stayed. -/
structure Balances (tally : Tally) (log : List LogEntry) (late stayed : Nat) : Prop where
  transitions : tally.transitions = countOf .transition log
  refusals : tally.refusals = countOf .refusal log
  errors : tally.errors = countOf .error log + late
  whole : tally.received = tally.skipped + tally.transitions + tally.refusals + tally.errors + stayed

theorem Balances.step {tally : Tally} {state : EngineState} {late stayed : Nat} {bar : Bar} {turn : Turn σ}
    {front back : List LogEntry} (balances : Balances tally state.log late stayed)
    (writes : Engine.Writes state bar turn front back) :
    Balances (tally.count turn.result) turn.state.log (late + turn.isLate.toNat) (stayed + turn.isStayed.toNat) := by
  obtain ⟨transitions, refusals, errors, whole⟩ := balances
  have told (kind : LogKind) (tells : kind.tells = true) : countOf kind turn.state.log =
      countOf kind state.log + turn.event?.toList.countP fun event => event.kind == kind := by
    rw [writes.counts tells]
    simp [countOf, Turn.entries, List.countP_map, Function.comp_def]
  have transitionsTold := told .transition rfl
  have refusalsTold := told .refusal rfl
  have errorsTold := told .error rfl
  have own := writes.own
  obtain ⟨result, left, after⟩ := turn
  cases result with
  | ok outcome =>
    cases outcome with
    | skipped | stayed | moved | refused =>
      simp [Turn.event?, LogEvent.kind] at transitionsTold refusalsTold errorsTold
      constructor <;> simp [Tally.count, Turn.isLate, Turn.isStayed] <;> omega
  | error error =>
    cases error with
    | symbolMismatch expected found => exact absurd rfl (own expected found)
    | outOfOrder | guard | resolve | venue | missingFeature | unknownPlan =>
      simp [Turn.event?, LogEvent.kind, EngineError.isRejection] at transitionsTold refusalsTold errorsTold
      constructor <;> simp [Tally.count, Turn.isLate, Turn.isStayed] <;> omega

/-! ### Places of bars -/

/-- Bars, each with those in front of it. -/
def fronted (front : List Bar) : List Bar → List (List Bar × Bar)
  | [] => []
  | bar :: rest => (front, bar) :: fronted (front ++ [bar]) rest

theorem fronted_snoc (front bars : List Bar) (bar : Bar) :
    fronted front (bars ++ [bar]) = fronted front bars ++ [(front ++ bars, bar)] := by
  induction bars generalizing front with
  | nil => simp [fronted]
  | cons first rest inductionHypothesis => simp [fronted, inductionHypothesis]

theorem countP_fronted_snoc (test : List Bar × Bar → Bool) (front : List Bar) (bar : Bar) :
    (fronted [] (front ++ [bar])).countP test = (fronted [] front).countP test + (test (front, bar)).toNat := by
  rw [fronted_snoc, List.countP_append, List.countP_singleton, List.nil_append]
  cases test (front, bar) <;> rfl

theorem mem_fronted {front bars : List Bar} {place : List Bar × Bar} (member : place ∈ fronted front bars) :
    ∃ before rest, bars = before ++ place.2 :: rest ∧ place.1 = front ++ before := by
  induction bars generalizing front with
  | nil => simp [fronted] at member
  | cons first rest inductionHypothesis =>
    rcases List.mem_cons.mp member with rfl | inside
    · exact ⟨[], rest, rfl, by simp⟩
    · obtain ⟨before, behind, split, same⟩ := inductionHypothesis inside
      exact ⟨first :: before, behind, by rw [split, List.cons_append], by simp [same]⟩

/-- The bar is not after every bar in front of it. -/
def isOutOfOrder (place : List Bar × Bar) : Bool :=
  place.1.any fun earlier => !earlier.timestamp.before place.2.timestamp

/-- The time of the latest of some bars. -/
def IsLatest (bars : List Bar) : Option Calendar.Instant → Prop
  | none => bars = []
  | some last => (∃ bar ∈ bars, bar.timestamp = last) ∧ ∀ bar ∈ bars, last.before bar.timestamp = false

section
variable {bars : List Bar} {last : Option Calendar.Instant} (latest : IsLatest bars last)
include latest

theorem IsLatest.reaches {other : Bar} (member : other ∈ bars) :
    ∃ previous ∈ last, previous.before other.timestamp = false := by
  cases last with
  | none =>
    rw [show bars = [] from latest] at member
    exact absurd member List.not_mem_nil
  | some previous => exact ⟨previous, rfl, latest.2 other member⟩

/-- A bar after the latest of some bars is after all of them. -/
theorem IsLatest.behind {bar : Bar} (after : ∀ previous ∈ last, previous.before bar.timestamp = true) :
    ∀ other ∈ bars, bar.timestamp.before other.timestamp = false := by
  intro other member
  obtain ⟨previous, known, notAfter⟩ := latest.reaches member
  exact Calendar.Instant.notBefore_trans (Calendar.Instant.before_asymm (after previous known)) notAfter

end

theorem IsLatest.late {previous : Calendar.Instant} {bars : List Bar} {bar : Bar}
    (latest : IsLatest bars (some previous)) (notAfter : previous.before bar.timestamp = false) :
    IsLatest (bars ++ [bar]) (some previous) := by
  obtain ⟨⟨first, inFront, same⟩, below⟩ := latest
  refine ⟨⟨first, List.mem_append_left [bar] inFront, same⟩, fun other member => ?_⟩
  rcases List.mem_append.mp member with inFront | last
  · exact below other inFront
  · rw [List.mem_singleton.mp last]
    exact notAfter

theorem isLatest_of_behind {bars : List Bar} {bar : Bar}
    (behind : ∀ other ∈ bars, bar.timestamp.before other.timestamp = false) :
    IsLatest (bars ++ [bar]) (some bar.timestamp) := by
  refine ⟨⟨bar, by simp, rfl⟩, fun other member => ?_⟩
  rcases List.mem_append.mp member with inFront | last
  · exact behind other inFront
  · rw [List.mem_singleton.mp last]
    exact Calendar.Instant.before_irrefl bar.timestamp

/-- The last accepted bar is the latest of all, and the log is written in the order of the accepted bars. -/
structure Chronicle (bars : List Bar) (state : EngineState) : Prop where
  latest : IsLatest bars state.lastTimestamp
  dated : ∀ entry ∈ state.log, ∃ bar ∈ bars, entry.timestamp = bar.timestamp
  ascending : state.log.Pairwise fun earlier later => later.timestamp.before earlier.timestamp = false

section
variable {front : List Bar} {state : EngineState} (chronicle : Chronicle front state) {bar : Bar}
include chronicle

theorem Chronicle.dated_snoc (bar : Bar) {entry : LogEntry} (member : entry ∈ state.log) :
    ∃ other ∈ front ++ [bar], entry.timestamp = other.timestamp := by
  obtain ⟨other, inFront, same⟩ := chronicle.dated entry member
  exact ⟨other, List.mem_append_left [bar] inFront, same⟩

/-- A bar that is turned away for its time leaves nothing. -/
theorem Chronicle.late {previous : Calendar.Instant} (known : state.lastTimestamp = some previous)
    (notAfter : previous.before bar.timestamp = false) : Chronicle (front ++ [bar]) state where
  latest := by
    have latest := chronicle.latest
    rw [known] at latest ⊢
    exact latest.late notAfter
  dated _ member := chronicle.dated_snoc bar member
  ascending := chronicle.ascending

/-- A bar that is accepted writes behind all entries, with its own time. -/
theorem Chronicle.accept {turn : Turn σ} {before behind : List LogEntry}
    (after : ∀ previous ∈ state.lastTimestamp, previous.before bar.timestamp = true)
    (writes : Engine.Writes state bar turn before behind)
    (isLast : turn.state.lastTimestamp = some bar.timestamp) : Chronicle (front ++ [bar]) turn.state := by
  have behind := chronicle.latest.behind after
  obtain ⟨added, appended, timestamps⟩ := writes.extends
  refine ⟨isLast ▸ isLatest_of_behind behind, fun entry member => ?_, ?_⟩
  · rw [appended] at member
    rcases List.mem_append.mp member with old | new
    · exact chronicle.dated_snoc bar old
    · exact ⟨bar, by simp, timestamps entry new⟩
  · rw [appended]
    refine List.pairwise_append.mpr ⟨chronicle.ascending, ?_, fun earlier old later new => ?_⟩
    · refine List.pairwise_of_forall_mem_list fun earlier first later second => ?_
      rw [timestamps earlier first, timestamps later second]
      exact Calendar.Instant.before_irrefl bar.timestamp
    · obtain ⟨other, inFront, same⟩ := chronicle.dated earlier old
      rw [timestamps later new, same]
      exact behind other inFront

end

namespace Engine

variable {engine : Engine} {blueprint : Blueprint} {venue : Venue σ} {start : World σ} {bars front : List Bar}
  {bar : Bar}

/-- The turn of a bar behind those in front of it. -/
def turnAt (engine : Engine) (venue : Venue σ) (start : World σ) (place : List Bar × Bar) : Turn σ :=
  engine.turnAfter venue start place.1 place.2

/-- The stages in front of a bar and behind it. -/
def stagesAt (engine : Engine) (venue : Venue σ) (start : World σ) (place : List Bar × Bar) : Stage × Stage :=
  ((engine.after venue start place.1).state.stage, (engine.turnAt venue start place).state.stage)

/-- The changes of the stage in a run, in their order. -/
def changes (engine : Engine) (venue : Venue σ) (start : World σ) (bars : List Bar) : List (Stage × Stage) :=
  ((fronted [] bars).map (engine.stagesAt venue start)).filter fun stages => stages.1 ≠ stages.2

/-- What the log and the report tell of a run. -/
structure Audited (engine : Engine) (venue : Venue σ) (start : World σ) (bars : List Bar) (report : RunReport) :
    Prop where
  /-- The log tells every change of the stage, -/
  changes : movesOf report.log = engine.changes venue start bars
  /-- and so a path that leads from idle to the last stage. -/
  path : walk .idle (movesOf report.log) = some report.finalStage
  arrived : ToldInTarget report.log
  received : report.received = bars.length
  transitions : report.transitions = countOf .transition report.log
  refusals : report.refusals = countOf .refusal report.log
  errors : report.errors = countOf .error report.log + (fronted [] bars).countP isOutOfOrder
  whole : report.received = report.skipped + report.transitions + report.refusals + report.errors +
    (fronted [] bars).countP fun place => (engine.turnAt venue start place).isStayed
  /-- The bars that are out of order are those that are turned away for it. -/
  rejected : ∀ place ∈ fronted [] bars, (engine.turnAt venue start place).isLate = isOutOfOrder place
  ascending : report.log.Pairwise fun earlier later => later.timestamp.before earlier.timestamp = false

/-! ### One more bar -/

theorem rejection?_late {state : EngineState} (own : bar.symbol = engine.strategy.symbol) {error : EngineError}
    (why : engine.rejection? state bar = some error) : ∃ previous, state.lastTimestamp = some previous ∧
      previous.before bar.timestamp = false ∧ error = .outOfOrder previous bar.timestamp := by
  unfold rejection? at why
  rw [if_neg (not_not_intro own)] at why
  split at why
  · next previous known =>
    split at why
    · contradiction
    · next notAfter => exact ⟨previous, known, by simpa using notAfter, (Option.some.inj why).symm⟩
  · contradiction

theorem rejection?_none {state : EngineState} (own : bar.symbol = engine.strategy.symbol)
    (accepted : engine.rejection? state bar = none) :
    ∀ previous ∈ state.lastTimestamp, previous.before bar.timestamp = true := by
  intro previous known
  unfold rejection? at accepted
  rw [if_neg (not_not_intro own), Option.mem_def.mp known] at accepted
  simpa using accepted

theorem turnAfter_writes (venue : Venue σ) (start : World σ) (front : List Bar)
    (own : bar.symbol = engine.strategy.symbol) :
    ∃ before behind, Writes (engine.after venue start front).state bar (engine.turnAfter venue start front bar)
      before behind :=
  processBar_writes own

theorem Moves.changes {state : EngineState} {turn : Turn σ}
    (moves : Moves engine blueprint state bar turn.result turn.state) :
    [(state.stage, turn.state.stage)].filter (fun stages => stages.1 ≠ stages.2) = turn.move?.toList := by
  cases moves with
  | stays stage _ unmoved =>
    have still : turn.move? = none := by
      unfold Turn.move?
      split
      · next moved => exact absurd moved (unmoved _ _)
      · rfl
    simp [stage, still]
  | arms _ idle stage _ _ moved => simp [idle, stage, Turn.move?, moved]
  | goesOn edge _ moved =>
    have differ : state.stage ≠ turn.state.stage := by
      intro same
      cases stage : turn.state.stage <;> simp [same, stage] at edge
    simp [Turn.move?, moved, differ]
  | resets edge stage _ moved =>
    have differ : state.stage ≠ .idle := by
      intro same
      rw [same] at edge
      simp at edge
    simp [Turn.move?, moved, stage, differ]

theorem changes_snoc (front : List Bar) (bar : Bar) :
    engine.changes venue start (front ++ [bar]) = engine.changes venue start front ++
      [((engine.after venue start front).state.stage, (engine.turnAfter venue start front bar).state.stage)].filter
        fun stages => stages.1 ≠ stages.2 := by
  rw [changes, fronted_snoc, List.map_append, List.filter_append]
  rfl

theorem after_received (venue : Venue σ) (start : World σ) (bars : List Bar) :
    (engine.after venue start bars).tally.received = bars.length := by
  induction bars using List.reverseRecOn with
  | nil => rfl
  | append_singleton front bar inductionHypothesis =>
    rw [after_snoc_turn, List.length_append, List.length_singleton, ← inductionHypothesis]
    exact Tally.count_received _ _

/-- The changes of the stage lead to the last stage. -/
theorem walk_changes (idle : engine.strategy.start = .idle) (venue : Venue σ) (start : World σ) (bars : List Bar) :
    walk .idle (engine.changes venue start bars) = some (engine.after venue start bars).state.stage := by
  induction bars using List.reverseRecOn with
  | nil => exact congrArg some idle.symm
  | append_singleton front bar inductionHypothesis =>
    rw [changes_snoc, walk_append, inductionHypothesis, after_snoc_turn]
    by_cases same : (engine.after venue start front).state.stage = (engine.turnAfter venue start front bar).state.stage
    · simp [same, walk]
    · simp [same, walk]

section
variable (own : ∀ bar ∈ bars, bar.symbol = engine.strategy.symbol)
include own

theorem after_balances (venue : Venue σ) (start : World σ) :
    Balances (engine.after venue start bars).tally (engine.after venue start bars).state.log
    ((fronted [] bars).countP fun place => (engine.turnAt venue start place).isLate)
    ((fronted [] bars).countP fun place => (engine.turnAt venue start place).isStayed) := by
  induction bars using List.reverseRecOn with
  | nil => exact ⟨rfl, rfl, rfl, rfl⟩
  | append_singleton front bar inductionHypothesis =>
    obtain ⟨before, behind, writes⟩ := turnAfter_writes venue start front
      (own bar (by simp))
    rw [after_snoc_turn, countP_fronted_snoc, countP_fronted_snoc]
    exact (inductionHypothesis fun other member => own other (by simp [member])).step writes

theorem after_changes (follows : engine.strategy.Follows blueprint) (venue : Venue σ) (start : World σ) :
    movesOf (engine.after venue start bars).state.log = engine.changes venue start bars := by
  induction bars using List.reverseRecOn with
  | nil => rfl
  | append_singleton front bar inductionHypothesis =>
    obtain ⟨before, behind, writes⟩ := turnAfter_writes venue start front
      (own bar (by simp))
    have moves : Moves engine blueprint (engine.after venue start front).state bar
        (engine.turnAfter venue start front bar).result (engine.turnAfter venue start front bar).state :=
      processBar_moves follows (after_holds follows venue start front) bar
    rw [after_snoc_turn, changes_snoc, writes.moves,
      inductionHypothesis fun other member => own other (by simp [member])]
    exact congrArg _ moves.changes.symm

theorem after_arrived : ToldInTarget (engine.after venue start bars).state.log := by
  induction bars using List.reverseRecOn with
  | nil => exact fun _ member => absurd member List.not_mem_nil
  | append_singleton front bar inductionHypothesis =>
    obtain ⟨before, behind, writes⟩ := turnAfter_writes venue start front
      (own bar (by simp))
    rw [after_snoc_turn]
    exact writes.arrives (inductionHypothesis fun other member => own other (by simp [member]))

theorem after_chronicle (venue : Venue σ) (start : World σ) :
    Chronicle bars (engine.after venue start bars).state := by
  induction bars using List.reverseRecOn with
  | nil => exact ⟨rfl, fun _ member => absurd member List.not_mem_nil, List.Pairwise.nil⟩
  | append_singleton front bar inductionHypothesis =>
    have chronicle := inductionHypothesis fun other member => own other (by simp [member])
    have ownBar : bar.symbol = engine.strategy.symbol := own bar (by simp)
    rw [after_snoc_turn]
    match why : engine.rejection? (engine.after venue start front).state bar with
    | some error =>
      obtain ⟨previous, known, notAfter, _⟩ := rejection?_late ownBar why
      rw [turnAfter, processBar_rejected why]
      exact chronicle.late known notAfter
    | none =>
      obtain ⟨before, behind, writes⟩ := turnAfter_writes venue start front ownBar
      exact chronicle.accept (rejection?_none ownBar why) writes (processBar_lastTimestamp why)

/-- A bar is turned away for its time if and only if a bar in front of it is not before it. -/
theorem turnAt_isLate {place : List Bar × Bar} (member : place ∈ fronted [] bars) :
    (engine.turnAt venue start place).isLate = isOutOfOrder place := by
  obtain ⟨front, bar⟩ := place
  obtain ⟨before, rest, split, same⟩ := mem_fronted member
  obtain rfl : front = before := same
  have ownBar : bar.symbol = engine.strategy.symbol := own bar (by simp [split])
  have ownFront (other : Bar) (inFront : other ∈ front) : other.symbol = engine.strategy.symbol :=
    own other (by simp [split, inFront])
  have latest := (after_chronicle ownFront venue start).latest
  obtain ⟨_, _, writes⟩ := turnAfter_writes venue start front ownBar
  rw [Bool.eq_iff_iff]
  constructor
  · intro late
    obtain ⟨previous, known, notAfter⟩ := writes.late late
    rw [Option.mem_def.mp known] at latest
    obtain ⟨⟨first, inFront, rfl⟩, _⟩ := latest
    exact List.any_eq_true.mpr ⟨first, inFront, by simp [notAfter]⟩
  · intro outOfOrder
    obtain ⟨earlier, inFront, notBefore⟩ := List.any_eq_true.mp outOfOrder
    match why : engine.rejection? (engine.after venue start front).state bar with
    | some error =>
      obtain ⟨previous, _, _, rfl⟩ := rejection?_late ownBar why
      rw [turnAt, turnAfter, processBar_rejected why]
      rfl
    | none =>
      obtain ⟨previous, known, notAfter⟩ := latest.reaches inFront
      have late := Calendar.Instant.notBefore_trans notAfter (by simpa using notBefore)
      rw [rejection?_none ownBar why previous known] at late
      contradiction

theorem audited (follows : engine.strategy.Follows blueprint) (venue : Venue σ) (start : World σ) :
    engine.Audited venue start bars (engine.run venue start bars) := by
  obtain ⟨transitions, refusals, errors, whole⟩ := after_balances own venue start
  have rejected (place : List Bar × Bar) (member : place ∈ fronted [] bars) :
      (engine.turnAt venue start place).isLate = isOutOfOrder place := turnAt_isLate own member
  have lateBars : (fronted [] bars).countP (fun place => (engine.turnAt venue start place).isLate) =
      (fronted [] bars).countP isOutOfOrder :=
    List.countP_congr fun place member => by rw [rejected place member]
  have changes := after_changes own follows venue start
  exact {
    changes := changes
    path := by
      rw [run_eq_after]
      exact changes ▸ walk_changes follows.start venue start bars
    arrived := after_arrived own
    received := after_received venue start bars
    transitions := transitions
    refusals := refusals
    errors := lateBars ▸ errors
    whole := whole
    rejected := rejected
    ascending := (after_chronicle own venue start).ascending }

end

end Engine

/-- The log and the report tell the whole run: over every venue and all bars of its symbol, the log of a compiled
strategy tells every change of the stage in its order, and the report counts what the log tells. -/
theorem log_tells_run {registry : Registry} {json : Json} {strategy : Strategy} {options : EngineOptions}
    {engine : Engine} (compiled : Strategy.ofDocument registry json = .ok strategy)
    (bound : Engine.ofStrategy strategy registry options = .ok engine) {σ : Type} (venue : Venue σ) (start : World σ)
    {bars : List Bar} (own : ∀ bar ∈ bars, bar.symbol = strategy.symbol) :
    engine.Audited venue start bars (engine.run venue start bars) := by
  obtain ⟨blueprint, follows, _, _⟩ := Strategy.ofDocument_follows compiled
  obtain ⟨sameStrategy, _⟩ := Engine.ofStrategy_keeps bound
  exact Engine.audited (sameStrategy.symm ▸ own) (sameStrategy.symm ▸ follows) venue start

/-- The turning bars with one among them that is out of order. -/
def disorderedBars : List Bar :=
  turningBars.take 2 ++ risingBars.take 1 ++ turningBars.drop 2

set_option maxRecDepth 100000 in
/-- The log tells a whole cycle of the breakout strategy. The bar that is out of order is an error without an entry. -/
theorem disordered_breakout_audited :
    ∃ strategy engine, Strategy.ofDocument .empty breakoutDocument = .ok strategy ∧
      Engine.ofStrategy strategy .empty liveOptions = .ok engine ∧
      engine.Audited PaperScript.plain.venue ⟨0, .empty⟩ disorderedBars
        (engine.run PaperScript.plain.venue ⟨0, .empty⟩ disorderedBars) ∧
      movesOf (engine.run PaperScript.plain.venue ⟨0, .empty⟩ disorderedBars).log = Engine.edges.eraseIdx 2 ∧
      (engine.run PaperScript.plain.venue ⟨0, .empty⟩ disorderedBars).errors = 1 := by
  have passed : Engine.passes .empty breakoutDocument liveOptions (fun engine => (engine.strategy.symbol == "ACME") &&
      decide (movesOf (engine.run PaperScript.plain.venue ⟨0, .empty⟩ disorderedBars).log = Engine.edges.eraseIdx 2 ∧
        (engine.run PaperScript.plain.venue ⟨0, .empty⟩ disorderedBars).errors = 1)) = true := by decide +kernel
  obtain ⟨strategy, engine, compiled, bound, tests⟩ := Engine.passes_binds passed
  obtain ⟨symbol, told⟩ := Bool.and_eq_true_iff.mp tests
  obtain ⟨moves, errors⟩ := of_decide_eq_true told
  obtain ⟨sameStrategy, _⟩ := Engine.ofStrategy_keeps bound
  have own : ∀ bar ∈ disorderedBars, bar.symbol = strategy.symbol := by
    rw [← sameStrategy, eq_of_beq symbol]
    decide
  exact ⟨strategy, engine, compiled, bound, log_tells_run compiled bound _ _ own, moves, errors⟩

end TradingStrategy

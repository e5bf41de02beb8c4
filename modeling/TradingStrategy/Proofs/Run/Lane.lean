import TradingStrategy.Proofs.Run.Reach
import TradingStrategy.Proofs.Venue.Paper

/-!
One engine behind a channel.

Owns:
- a lane for a participant of a run: a feeder, a bounded channel, and the task of the engine, each with its move;
- venues that do not look at the clock, and that time makes no difference to an engine at such a venue;
- `Lane.Tracks`: where each bar of a lane is, at every moment;
- that a lane whose engine has not reported can move.

A task that cannot move stays as it is: a feeder in front of a full channel, and an engine in front of an empty one that
is still open.
-/

namespace TradingStrategy

/-! ### Tasks -/

/-- A participant's side of a run. -/
structure Lane (participant : Participant) where
  /-- The bars of the run that the feeder has not looked at. -/
  unfed : List Bar
  /-- The feeder has ended, and its end of the channel with it. -/
  closed : Bool
  channel : List Bar
  /-- The bar that the engine has received and not processed. -/
  inHand : Option Bar
  run : RunState participant.State
  /-- The bars that the engine has processed. -/
  processed : List Bar
  report : Option RunReport

namespace Lane

variable {participant : Participant}

def start (participant : Participant) (bars : List Bar) : Lane participant :=
  ⟨bars, false, [], none, participant.engine.runStart participant.world, [], none⟩

/-- A feeder passes over bars for other symbols and sends the others, if there is room. It ends behind the last bar, and
also where nobody receives any more. -/
def feed (capacity : Nat) (lane : Lane participant) : Lane participant :=
  if lane.closed then lane
  else match lane.unfed with
    | [] => { lane with closed := true }
    | bar :: rest =>
        if bar.symbol ≠ participant.engine.strategy.symbol then { lane with unfed := rest }
        else if lane.report.isSome then { lane with closed := true }
        else if lane.channel.length < capacity then { lane with unfed := rest, channel := lane.channel ++ [bar] }
        else lane

/-- An engine processes the bar in its hand, or it takes the next one from the channel. It reports when the channel is
empty and closed. -/
def work (lane : Lane participant) : Lane participant :=
  match lane.report, lane.inHand, lane.channel with
  | some _, _, _ => lane
  | none, some bar, _ =>
      { lane with
        inHand := none
        run := participant.engine.runStep participant.venue lane.run bar
        processed := lane.processed ++ [bar] }
  | none, none, bar :: rest => { lane with channel := rest, inHand := some bar }
  | none, none, [] =>
      if lane.closed then { lane with report := some (participant.engine.report lane.run) } else lane

/-- Time passes for an engine. -/
def wait (milliseconds : Nat) (lane : Lane participant) : Lane participant :=
  { lane with run := { lane.run with
    world := { lane.run.world with clock := lane.run.world.clock + milliseconds } } }

end Lane

/-! ### Time -/

/-- A venue that does not look at the clock. -/
def Venue.Timeless {σ : Type} (environment : Environment) (venue : Venue σ) : Prop :=
  Venue.Similar environment venue venue fun world other => world.venue = other.venue

theorem PaperScript.timeless (script : PaperScript) (environment : Environment) :
    script.venue.Timeless environment where
  place leg world other same := by
    rw [placeOne_eq, placeOne_eq]
    dsimp only
    rw [same]
    split
    · split
      · exact ⟨rfl, rfl⟩
      · exact ⟨rfl, rfl⟩
    · exact ⟨rfl, rfl⟩
  cancel id world other same := by
    rw [cancelOne_eq, cancelOne_eq, same]
    split
    · exact ⟨rfl, rfl⟩
    · exact ⟨rfl, rfl⟩
  openOrders symbol world other same := by
    match dry : environment.dryRun with
    | true =>
      simp only [Venue.queryOpen, dry, if_true]
      exact ⟨rfl, same⟩
    | false =>
      rw [queryOpen_eq _ _ dry, queryOpen_eq _ _ dry, same]
      split
      · exact ⟨rfl, rfl⟩
      · exact ⟨rfl, rfl⟩

namespace Participant

def IsTimeless (participant : Participant) : Prop :=
  participant.venue.Timeless participant.engine.options.environment

/-- The same world, or at another time where this makes no difference. -/
def SameWorld (participant : Participant) (world other : World participant.State) : Prop :=
  world = other ∨ participant.IsTimeless ∧ world.venue = other.venue

variable {participant : Participant}

theorem similar (participant : Participant) :
    Venue.Similar participant.engine.options.environment participant.venue participant.venue participant.SameWorld where
  place leg world other same := by
    rcases same with rfl | ⟨timeless, same⟩
    · exact ⟨rfl, .inl rfl⟩
    · exact ⟨(timeless.place leg world other same).1, .inr ⟨timeless, (timeless.place leg world other same).2⟩⟩
  cancel id world other same := by
    rcases same with rfl | ⟨timeless, same⟩
    · exact ⟨rfl, .inl rfl⟩
    · exact ⟨(timeless.cancel id world other same).1, .inr ⟨timeless, (timeless.cancel id world other same).2⟩⟩
  openOrders symbol world other same := by
    rcases same with rfl | ⟨timeless, same⟩
    · exact ⟨rfl, .inl rfl⟩
    · exact ⟨(timeless.openOrders symbol world other same).1,
        .inr ⟨timeless, (timeless.openOrders symbol world other same).2⟩⟩

/-- Two runs that differ at most in the time. -/
structure SameRun (participant : Participant) (run other : RunState participant.State) : Prop where
  state : run.state = other.state
  tally : run.tally = other.tally
  world : participant.SameWorld run.world other.world

theorem SameRun.step {run other : RunState participant.State} (same : participant.SameRun run other) (bar : Bar) :
    participant.SameRun (participant.engine.runStep participant.venue run bar)
      (participant.engine.runStep participant.venue other bar) := by
  have turned := Engine.processBar_similar participant.similar run.state bar same.world
  unfold Engine.runStep
  rw [← same.state, ← same.tally]
  exact ⟨turned.state, congrArg run.tally.count turned.result, turned.world⟩

theorem SameRun.report_eq {run other : RunState participant.State} (same : participant.SameRun run other) :
    participant.engine.report run = participant.engine.report other := by
  unfold Engine.report
  rw [same.state, same.tally]

/-- The run of a participant alone, over the bars of its symbol. -/
def alone (participant : Participant) (bars : List Bar) : RunReport :=
  participant.engine.run participant.venue participant.world (participant.engine.barsOf bars)

end Participant

/-! ### Every moment of a lane -/

namespace Lane

variable {participant : Participant} {bars : List Bar} {capacity : Nat} {lane : Lane participant}

/-- Where the bars of a lane are: processed, in the engine's hand, in the channel, or not fed yet. In this order they are
the bars of the engine's symbol. The engine is where it would be alone. -/
structure Tracks (bars : List Bar) (capacity : Nat) (lane : Lane participant) : Prop where
  flow : lane.processed ++ lane.inHand.toList ++ lane.channel ++ participant.engine.barsOf lane.unfed =
    participant.engine.barsOf bars
  room : lane.channel.length ≤ capacity
  run : participant.SameRun lane.run
    (participant.engine.after participant.venue participant.world lane.processed)
  closed : lane.closed = true → lane.unfed = []
  reported : ∀ report ∈ lane.report, lane.closed = true ∧ lane.channel = [] ∧ lane.inHand = none ∧
    report = participant.engine.report lane.run

theorem barsOf_own {bar : Bar} (own : bar.symbol = participant.engine.strategy.symbol) (rest : List Bar) :
    participant.engine.barsOf (bar :: rest) = bar :: participant.engine.barsOf rest :=
  List.filter_cons_of_pos (by simpa using own)

theorem barsOf_foreign {bar : Bar} (foreign : bar.symbol ≠ participant.engine.strategy.symbol) (rest : List Bar) :
    participant.engine.barsOf (bar :: rest) = participant.engine.barsOf rest :=
  List.filter_cons_of_neg (by simpa using foreign)

theorem Tracks.feed (tracks : lane.Tracks bars capacity) : (lane.feed capacity).Tracks bars capacity := by
  unfold Lane.feed
  by_cases closed : lane.closed = true
  · rw [if_pos closed]
    exact tracks
  · rw [if_neg closed]
    -- An engine reports behind the end of its feeder only, so a feeder that has not ended is received.
    have unreported : lane.report = none := by
      by_contra told
      obtain ⟨report, told⟩ := Option.ne_none_iff_exists'.mp told
      exact closed (tracks.reported report told).1
    split
    · next unfed => exact ⟨tracks.flow, tracks.room, tracks.run, fun _ => unfed, by simp [unreported]⟩
    · next bar rest unfed =>
      have flow := tracks.flow
      rw [unfed] at flow
      by_cases own : bar.symbol = participant.engine.strategy.symbol
      · rw [if_neg (not_not.mpr own), if_neg (by simp [unreported])]
        by_cases room : lane.channel.length < capacity
        · rw [if_pos room]
          rw [barsOf_own own] at flow
          refine ⟨?_, ?_, tracks.run, fun ended => absurd ended closed, by simp [unreported]⟩
          · simpa only [List.append_assoc, List.singleton_append] using flow
          · rw [List.length_append]
            exact room
        · rw [if_neg room]
          exact tracks
      · rw [if_pos own]
        rw [barsOf_foreign own] at flow
        exact ⟨flow, tracks.room, tracks.run, fun ended => absurd ended closed, by simp [unreported]⟩

theorem Tracks.work (tracks : lane.Tracks bars capacity) : lane.work.Tracks bars capacity := by
  have flow := tracks.flow
  unfold Lane.work
  split
  · exact tracks
  · next bar unreported inHand =>
    rw [inHand] at flow
    refine ⟨?_, tracks.room, ?_, tracks.closed, by simp [unreported]⟩
    · rw [Option.toList_none, List.append_nil]
      exact flow
    · rw [Engine.after_snoc]
      exact tracks.run.step bar
  · next bar rest unreported inHand channel =>
    rw [inHand, channel] at flow
    have room := tracks.room
    rw [channel, List.length_cons] at room
    refine ⟨?_, Nat.le_of_succ_le room, tracks.run, tracks.closed, by simp [unreported]⟩
    simpa only [Option.toList_none, Option.toList_some, List.append_nil, List.append_assoc,
      List.singleton_append] using flow
  · next unreported inHand channel =>
    split
    · next closed =>
      refine ⟨tracks.flow, tracks.room, tracks.run, tracks.closed, ?_⟩
      intro report told
      exact ⟨closed, channel, inHand, (Option.some.inj told).symm⟩
    · exact tracks

theorem Tracks.wait (tracks : lane.Tracks bars capacity) (timeless : participant.IsTimeless) (milliseconds : Nat) :
    (lane.wait milliseconds).Tracks bars capacity where
  flow := tracks.flow
  room := tracks.room
  run := by
    refine ⟨tracks.run.state, tracks.run.tally, .inr ⟨timeless, ?_⟩⟩
    rcases tracks.run.world with same | ⟨_, same⟩
    · have sameVenue := congrArg World.venue same
      exact sameVenue
    · exact same
  closed := tracks.closed
  reported := tracks.reported

/-- What was processed is always a first part of the bars of the engine's symbol. -/
theorem Tracks.inOrder (tracks : lane.Tracks bars capacity) :
    lane.processed <+: participant.engine.barsOf bars := by
  rw [← tracks.flow, List.append_assoc, List.append_assoc]
  exact List.prefix_append ..

/-- An engine that has reported has processed all its bars, and its report is that of the engine alone. -/
theorem Tracks.delivered (tracks : lane.Tracks bars capacity) {report : RunReport}
    (told : lane.report = some report) :
    lane.processed = participant.engine.barsOf bars ∧ report = participant.alone bars := by
  obtain ⟨closed, channel, inHand, isReport⟩ := tracks.reported report told
  have flow := tracks.flow
  rw [inHand, channel, tracks.closed closed] at flow
  have processed : lane.processed = participant.engine.barsOf bars := by
    simpa only [Option.toList_none, Engine.barsOf, List.filter_nil, List.append_nil] using flow
  refine ⟨processed, ?_⟩
  rw [isReport, tracks.run.report_eq, processed]
  rfl

theorem feed_report (capacity : Nat) (lane : Lane participant) : (lane.feed capacity).report = lane.report := by
  unfold feed
  repeat' split
  all_goals rfl

/-- An engine that has reported does nothing more. -/
theorem work_reported (told : lane.report.isSome = true) : lane.work = lane := by
  obtain ⟨report, told⟩ := Option.isSome_iff_exists.mp told
  simp only [work, told]

/-! ### What is left to do -/

/-- The moves that a lane has left, at most. -/
def left (lane : Lane participant) : Nat :=
  3 * lane.unfed.length + 2 * lane.channel.length + lane.inHand.toList.length + (!lane.closed).toNat +
    lane.report.isNone.toNat

end Lane

end TradingStrategy

import TradingStrategy.Proofs.Run.Submission
import TradingStrategy.Proofs.Venue.Entries

/-!
Entry orders that are open at the same time.

Owns:
- `Engine.Tends`: where cancellations get through, no entry order is open while the strategy rests, and only its own one
  while it works;
- `open_entries_overlap_iff`: two entry orders are open together exactly where cancellations do not get through, orders
  are open when they are accepted, and a second one was placed;
- a run in which this happens: an incomplete roll-back leaves an entry behind, and the next trigger places another one.
-/

namespace TradingStrategy

/-- No entry order among some is open. -/
def NoOpenEntry (orders : List Order) : Prop :=
  ∀ order ∈ orders, (order.isEntry && order.isOpen) = false

/-- With the ids of those withdrawn that are open, no entry order among some is open. -/
theorem noOpenEntry_withdrawn {orders : List Order} {ids : List String}
    (covered : ∀ order ∈ orders, (order.isEntry && order.isOpen) = true → order.id ∈ ids) :
    NoOpenEntry (orders.map (Order.withdrawn ids)) := by
  intro marked among
  obtain ⟨order, member, rfl⟩ := List.mem_map.mp among
  unfold Order.withdrawn
  split
  · exact Bool.and_false _
  · next kept =>
    match openEntry : order.isEntry && order.isOpen with
    | false => rfl
    | true => exact absurd (covered order member openEntry) kept

theorem NoOpenEntry.count {orders : List Order} (none : NoOpenEntry orders) :
    orders.countP (fun order => order.isEntry && order.isOpen) = 0 :=
  List.countP_eq_zero.mpr fun order member => by simp [none order member]

theorem NoOpenEntry.withdrawn {orders : List Order} (none : NoOpenEntry orders) (ids : List String) :
    NoOpenEntry (orders.map (Order.withdrawn ids)) :=
  noOpenEntry_withdrawn fun order member openEntry => by simp [none order member] at openEntry

theorem NoOpenEntry.append {front back : List Order} (first : NoOpenEntry front) (second : NoOpenEntry back) :
    NoOpenEntry (front ++ back) := by
  intro order member
  rcases List.mem_append.mp member with member | member
  · exact first order member
  · exact second order member

namespace PaperScript

variable {script : PaperScript} {environment : Environment}

theorem numbered_keeps (live : environment.dryRun = false) :
    script.venue.Keeps environment fun world => world.venue.Numbered where
  place leg world numbered := by
    rcases script.placeOne_visits environment leg world with same | longer
    · exact numbered.ofOrders same
    · exact (numbered.add leg script.accepted).ofOrders longer
  cancel id world numbered := by
    rcases script.cancelOne_visits environment id world with same | ⟨_, marked⟩
    · exact numbered.ofOrders same
    · exact numbered.withdrawn marked
  openOrders symbol world numbered := by
    rw [script.queryOpen_eq environment live]
    split
    · exact numbered
    · exact numbered

/-- Where cancellations get through, a submission that fails leaves no open entry order behind. -/
theorem submit_leaves_none (live : environment.dryRun = false) (through : script.Cancels environment)
    {plan : ResolvedPlan} {world after : World PaperBook} {error : VenueError} (numbered : world.venue.Numbered)
    (none : NoOpenEntry world.venue.orders)
    (failed : script.venue.submit environment plan world = (.error error, after)) : NoOpenEntry after.venue.orders := by
  rcases submit_places live plan world numbered with ⟨fault, rejected⟩ | ⟨legs, _, places⟩
  · rw [rejected] at failed
    rw [← (Prod.mk.inj failed).2]
    exact none
  · rw [failed] at places
    cases places with
    | nothing _ _ direct orders =>
      rw [orders]
      exact none
    | takenBack sent cause before _ report isPrefix nonempty direct numbered added cancels =>
      rw [cancels.orders, added, List.map_append]
      refine (none.withdrawn _).append (noOpenEntry_withdrawn ?_)
      intro order member openEntry
      have accepted := ordersOf_status _ _ order member
      -- All orders of this call are in the state of the script, so all are open, and all are cancelled.
      have openScript : script.accepted.isOpen = true := by
        rw [← accepted]
        exact (Bool.and_eq_true_iff.mp openEntry).2
      have all := cancels.complete through ?_ ?_
      · rw [all, List.mem_reverse]
        exact List.mem_map_of_mem member
      · rw [List.nodup_reverse]
        have distinct := numbered.nodup
        rw [added, List.map_append] at distinct
        exact (List.nodup_append.mp distinct).2.1
      · intro id among
        obtain ⟨other, otherMember, rfl⟩ := List.mem_map.mp (List.mem_reverse.mp among)
        refine ⟨other, numbered.order?_eq (added ▸ List.mem_append_right _ otherMember), ?_⟩
        rw [Order.isOpen, ordersOf_status _ _ other otherMember]
        exact openScript

end PaperScript

namespace Engine

variable {engine : Engine} {blueprint : Blueprint} {script : PaperScript} {state : EngineState}

/-- While the strategy rests, no entry order is open. While it works, its orders stand at the end of the book as the
bracket of its plan, and no entry order in front of them is open. -/
structure Tends (state : EngineState) (book : PaperBook) : Prop where
  resting : state.stage ∈ [Stage.idle, .armed, .exited] → NoOpenEntry book.orders
  working : state.stage ∈ [Stage.placed, .managing] → ∃ base plan, book.orders = base ++ state.orders ∧
    NoOpenEntry base ∧ state.frozen = some plan ∧ plan.bracket = .ok (state.orders.map Order.leg)

theorem Tends.observed {book : PaperBook} (tends : Tends state book) (engine : Engine) (bar : Bar) :
    Tends (engine.observed state bar) book := by
  obtain ⟨sameStage, sameFrozen, sameOrders⟩ := observed_stage engine state bar
  exact ⟨by rw [sameStage]; exact tends.resting, by rw [sameStage, sameFrozen, sameOrders]; exact tends.working⟩

/-- Asking for the own orders shows those of the book that are open or live, and leaves the book. -/
theorem ownOrders_shows (live : engine.options.environment.dryRun = false) {world after : World PaperBook}
    {answer : Except EngineError (List Order)} (asked : engine.ownOrders script.venue state world = (answer, after)) :
    after.venue = world.venue ∧ ∀ orders, answer = .ok orders →
      orders = (world.venue.openOrders (engine.planSymbol state)).filter fun order =>
        (state.orders.map Order.id).contains order.id := by
  unfold ownOrders at asked
  split at asked
  · next noOrders =>
    obtain ⟨rfl, rfl⟩ := Prod.mk.inj asked
    refine ⟨rfl, fun orders shown => ?_⟩
    rw [← Except.ok.inj shown, List.isEmpty_iff.mp noOrders]
    simp
  · rw [if_neg (by simp [live]), script.queryOpen_eq _ live] at asked
    by_cases arrives : script.latency ≤ engine.options.environment.timeout
    · simp only [arrives, if_true] at asked
      obtain ⟨rfl, rfl⟩ := Prod.mk.inj asked
      exact ⟨rfl, fun orders shown => (Except.ok.inj shown).symm⟩
    · simp only [arrives, if_false] at asked
      obtain ⟨rfl, rfl⟩ := Prod.mk.inj asked
      exact ⟨rfl, fun orders shown => by contradiction⟩

theorem exit_leaves_none (live : engine.options.environment.dryRun = false)
    (through : script.Cancels engine.options.environment) {world between after : World PaperBook}
    (numbered : world.venue.Numbered) (tends : Tends state world.venue) (managing : state.stage = .managing)
    {orders : List Order} {report : CancelReport}
    (asked : engine.ownOrders script.venue state world = (.ok orders, between))
    (cancelled : script.venue.cancelEntries engine.options.environment (engine.planSymbol state) orders between =
      (report, after)) : NoOpenEntry after.venue.orders := by
  obtain ⟨base, plan, parts, none, frozen, bracketed⟩ := tends.working (by simp [managing])
  obtain ⟨sameBook, shown⟩ := ownOrders_shows live asked
  have shown := shown orders rfl
  have symbol : engine.planSymbol state = plan.symbol := by rw [planSymbol, frozen]
  have part : orders.Sublist world.venue.orders := by
    rw [shown]
    exact List.filter_sublist.trans List.filter_sublist
  obtain ⟨_, complete, marked⟩ := PaperScript.cancelEntries_complete live through (engine.planSymbol state)
    (sameBook.symm ▸ numbered) (sameBook.symm ▸ part)
  rw [cancelled] at complete
  rw [(Prod.mk.inj complete).2, marked, sameBook]
  apply noOpenEntry_withdrawn
  intro order member openEntry
  have own : order ∈ state.orders := by
    rcases List.mem_append.mp (parts ▸ member) with inBase | own
    · rw [none order inBase] at openEntry
      contradiction
    · exact own
  have sameSymbol : order.symbol = engine.planSymbol state := by
    rw [symbol]
    exact (ResolvedPlan.bracket_legs bracketed).2 order.leg (List.mem_map_of_mem own)
  obtain ⟨isEntry, isOpen⟩ := Bool.and_eq_true_iff.mp openEntry
  apply List.mem_map_of_mem
  refine List.mem_filter.mpr ⟨?_, by simp [sameSymbol, isEntry, isOpen]⟩
  rw [shown]
  refine List.mem_filter.mpr ⟨List.mem_filter.mpr ⟨member, by simp [sameSymbol, isOpen]⟩, ?_⟩
  exact List.contains_iff_mem.mpr (List.mem_map_of_mem own)

theorem Advances.tends (live : engine.options.environment.dryRun = false)
    (through : script.Cancels engine.options.environment) {timestamp : Calendar.Instant} {world : World PaperBook}
    {turn : Turn PaperBook} (advances : Advances engine blueprint script.venue state timestamp world turn)
    (holds : state.Holds blueprint) (numbered : world.venue.Numbered) (tends : Tends state world.venue) :
    Tends turn.state turn.world.venue := by
  cases advances with
  | undecided | stayed | unresolved => exact tends
  | refused => exact ⟨tends.resting, tends.working⟩
  | armed plan idle fires resolved =>
    simp only [EngineState.commit_eq, Blueprint.arming, EngineState.enter]
    exact ⟨fun _ => tends.resting (by simp [idle]), by simp⟩
  | unsubmitted plan assessment error after armed frozen fires gated submitted =>
    have none := PaperScript.submit_leaves_none live through numbered (tends.resting (by simp [armed])) submitted
    exact ⟨fun _ => none, by simp [armed]⟩
  | placed plan assessment orders after armed frozen fires gated submitted =>
    have none := tends.resting (by simp [armed])
    rcases PaperScript.submit_places live plan world numbered with ⟨fault, rejected⟩ | ⟨legs, bracketed, places⟩
    · rw [rejected] at submitted
      simp at submitted
    · rw [submitted] at places
      cases places with
      | whole _ added =>
        simp only [EngineState.commit_eq, Blueprint.placing, EngineState.enter, holds.unsubmitted (.inr armed),
          List.nil_append]
        refine ⟨by simp, fun _ => ⟨world.venue.orders, plan, added, none, frozen, ?_⟩⟩
        rw [PaperScript.ordersOf_leg]
        exact bracketed
  | gaveUp armed isFalse late =>
    simp only [EngineState.commit_eq, Blueprint.giveUp, EngineState.enter]
    exact ⟨fun _ => tends.resting (by simp [armed]), by simp⟩
  | unqueried error after placed asked =>
    rw [← (ownOrders_shows live asked).1] at tends
    exact tends
  | waited orders after placed asked noneLive =>
    rw [← (ownOrders_shows live asked).1] at tends
    exact tends
  | managed orders after placed asked isLive =>
    rw [← (ownOrders_shows live asked).1] at tends
    simp only [EngineState.commit_eq, Blueprint.manage, EngineState.enter, List.append_nil]
    exact ⟨by simp, fun _ => tends.working (by simp [placed])⟩
  | uncancelled error after managing fires asked =>
    rw [← (ownOrders_shows live asked).1] at tends
    exact tends
  | exited orders between after report managing fires asked cancelled =>
    simp only [EngineState.commit_eq, Blueprint.exiting, EngineState.enter]
    exact ⟨fun _ => exit_leaves_none live through numbered tends managing asked cancelled, by simp⟩
  | startedOver exited =>
    simp only [EngineState.commit_eq, Blueprint.startOver, EngineState.enter]
    exact ⟨fun _ => tends.resting (by simp [exited]), by simp⟩

theorem processBar_tends (follows : engine.strategy.Follows blueprint) (live : engine.options.environment.dryRun = false)
    (through : script.Cancels engine.options.environment) {world : World PaperBook} (holds : state.Holds blueprint)
    (numbered : world.venue.Numbered) (tends : Tends state world.venue) (bar : Bar) :
    Tends (engine.processBar script.venue state bar world).state
      (engine.processBar script.venue state bar world).world.venue := by
  generalize turned : engine.processBar script.venue state bar world = turn
  cases turned ▸ processBar_processes follows holds bar with
  | rejected => exact tends
  | skipped => exact ⟨tends.resting, tends.working⟩
  | looked turn accepted opens advances =>
    have tends := advances.tends live through (observed_holds holds bar) numbered (tends.observed engine bar)
    obtain ⟨log, same⟩ := logError_eq bar.timestamp turn
    rw [same]
    exact ⟨tends.resting, tends.working⟩

/-- Where cancellations get through, a run that starts with an empty book tends to its entry orders. -/
theorem after_tends (follows : engine.strategy.Follows blueprint) (live : engine.options.environment.dryRun = false)
    (through : script.Cancels engine.options.environment) (clock : Nat) (bars : List Bar) :
    Tends (engine.after script.venue ⟨clock, .empty⟩ bars).state
      (engine.after script.venue ⟨clock, .empty⟩ bars).world.venue := by
  let kept (state : EngineState) (world : World PaperBook) : Prop :=
    state.Holds blueprint ∧ world.venue.Numbered ∧ Tends state world.venue
  have start : kept engine.startState ⟨clock, .empty⟩ := by
    refine ⟨startState_holds follows, rfl, fun _ => by simp [NoOpenEntry, PaperBook.empty], ?_⟩
    simp [startState, EngineState.start, follows.start]
  refine (after_induction kept start ?_ bars).2.2
  rintro state world bar ⟨holds, numbered, tends⟩
  exact ⟨processBar_holds follows holds bar, processBar_keeps (PaperScript.numbered_keeps live) state bar numbered,
    processBar_tends follows live through holds numbered tends bar⟩

theorem Tends.bounded {book : PaperBook} (tends : Tends state book) : book.entryCount Order.isOpen ≤ 1 := by
  unfold PaperBook.entryCount
  by_cases resting : state.stage ∈ [Stage.idle, .armed, .exited]
  · rw [(tends.resting resting).count]
    omega
  · have working : state.stage ∈ [Stage.placed, .managing] := by
      cases stage : state.stage <;> simp [stage] at resting ⊢
    obtain ⟨base, plan, parts, none, frozen, bracketed⟩ := tends.working working
    rw [parts, List.countP_append, none.count, Nat.zero_add]
    calc state.orders.countP (fun order => order.isEntry && order.isOpen)
      _ ≤ state.orders.countP Order.isEntry := by
        apply List.countP_mono_left
        intro order _ counted
        exact (Bool.and_eq_true_iff.mp counted).1
      _ = (state.orders.map Order.leg).countP OrderLeg.isEntry := by
        rw [List.countP_map]
        rfl
      _ ≤ 1 := Nat.le_of_eq (ResolvedPlan.bracket_legs bracketed).1

/-! ### Points of a run -/

/-- A run at the paper venue, whose requests are noted. It starts with an empty book. -/
def paperRun (engine : Engine) (script : PaperScript) (bars : List Bar) : RunState (Recorded PaperBook) :=
  engine.after script.venue.recorded (World.recorded ⟨0, .empty⟩) bars

/-- The book at the end of a run. -/
def lastBook (engine : Engine) (script : PaperScript) (bars : List Bar) : PaperBook :=
  (engine.paperRun script bars).world.venue.inner

/-- The books at all points of a run: the last one, and those in which the sections of its requests left the venue. -/
def books (engine : Engine) (script : PaperScript) (bars : List Bar) : List PaperBook :=
  engine.lastBook script bars :: (engine.paperRun script bars).world.venue.journal.filterMap Note.state?

variable (script) in
theorem paperRun_eq (engine : Engine) (bars : List Bar) :
    (engine.paperRun script bars).state = (engine.after script.venue ⟨0, .empty⟩ bars).state ∧
      (engine.paperRun script bars).world.inner = (engine.after script.venue ⟨0, .empty⟩ bars).world :=
  after_recorded engine script.venue (World.recorded ⟨0, .empty⟩) bars

theorem Submits.entries {plan : ResolvedPlan} {sent : List OrderLeg}
    (submits : engine.Submits blueprint state plan sent) : sent.countP OrderLeg.isEntry ≤ 1 := by
  obtain ⟨legs, bracketed, isPrefix⟩ := submits.legs
  rw [← (ResolvedPlan.bracket_legs bracketed).1]
  exact isPrefix.sublist.countP_le

/-- No point of a bar has more entry orders of a kind than there were in front of the bar, but for one that an armed
strategy sends. -/
theorem bar_bounded (follows : engine.strategy.Follows blueprint) (live : engine.options.environment.dryRun = false)
    (script : PaperScript) (bars : List Bar) (bar : Bar) {kind : Order → Bool}
    (fades : ∀ order, kind { order with status := .cancelled } = true → kind order = true) :
    ∃ more, more ≤ 1 ∧ (more ≠ 0 → (engine.paperRun script bars).state.stage = .armed) ∧
      (engine.lastBook script (bars ++ [bar])).entryCount kind ≤ (engine.lastBook script bars).entryCount kind + more ∧
      ∀ book ∈ engine.books script (bars ++ [bar]), book ∈ engine.books script bars ∨
        book.entryCount kind ≤ (engine.lastBook script bars).entryCount kind + more := by
  have holds : (engine.paperRun script bars).state.Holds blueprint := after_holds follows _ _ bars
  have next : engine.paperRun script (bars ++ [bar]) =
      engine.runStep script.venue.recorded (engine.paperRun script bars) bar := after_snoc bars bar
  simp only [books, lastBook, next, runStep]
  generalize engine.paperRun script bars = run at holds
  -- Along the bar, the count is bounded by the legs that were sent since its start.
  have start : PaperScript.Since run.world.venue.journal (fun sent book =>
      book.entryCount kind ≤ run.world.venue.inner.entryCount kind + sent.countP OrderLeg.isEntry) run.world :=
    PaperScript.Since.start (Nat.le_refl _)
  have carries := PaperScript.bounded_carries script engine.options.environment fades
    (run.world.venue.inner.entryCount kind)
  obtain ⟨notes, written, bounded⟩ := processBar_keeps (carries.keeps live _) run.state bar start
  obtain ⟨sent, added, submits, _⟩ := processBar_sends follows live script.venue holds bar run.world
  rw [World.sent, written, List.filterMap_append] at added
  rw [List.append_cancel_left added] at bounded
  refine ⟨sent.countP OrderLeg.isEntry, ?_, ?_, bounded _ List.mem_cons_self, ?_⟩
  · by_cases silent : sent = []
    · rw [silent]
      exact Nat.zero_le 1
    · obtain ⟨plan, submission⟩ := submits silent
      exact submission.entries
  · intro some
    obtain ⟨plan, submission⟩ := submits fun silent => some (by rw [silent]; rfl)
    exact (observed_stage engine run.state bar).1 ▸ submission.armed
  · intro book member
    rw [written, List.filterMap_append] at member
    rcases List.mem_cons.mp member with rfl | member
    · exact .inr (bounded _ List.mem_cons_self)
    · rcases List.mem_append.mp member with earlier | visited
      · exact .inl (List.mem_cons_of_mem _ earlier)
      · exact .inr (bounded book (List.mem_cons_of_mem _ visited))

/-- Where cancellations get through, no point of a run has two open entry orders. -/
theorem books_bounded (follows : engine.strategy.Follows blueprint) (live : engine.options.environment.dryRun = false)
    (through : script.Cancels engine.options.environment) (bars : List Bar) :
    ∀ book ∈ engine.books script bars, book.entryCount Order.isOpen ≤ 1 := by
  induction bars using List.reverseRecOn with
  | nil =>
    intro book member
    rw [List.mem_singleton.mp member]
    exact Nat.zero_le 1
  | append_singleton bars bar inductionHypothesis =>
    intro book member
    have tends := after_tends follows live through 0 bars
    obtain ⟨sameState, sameWorld⟩ := engine.paperRun_eq script bars
    have sameBook : engine.lastBook script bars = (engine.after script.venue ⟨0, .empty⟩ bars).world.venue :=
      congrArg World.venue sameWorld
    rw [← sameState, ← sameBook] at tends
    have fades (order : Order) (isOpen : Order.isOpen { order with status := .cancelled } = true) :
        order.isOpen = true := by simp [Order.isOpen, OrderStatus.isOpen] at isOpen
    obtain ⟨more, single, armed, _, visited⟩ := bar_bounded follows live script bars bar fades
    rcases visited book member with earlier | bounded
    · exact inductionHypothesis book earlier
    -- The bar started with at most one open entry order, and with none if it could send another one.
    · by_cases silent : more = 0
      · have := tends.bounded
        omega
      · have none : (engine.lastBook script bars).entryCount Order.isOpen = 0 :=
          (tends.resting (by simp [armed silent])).count
        omega

/-- Where cancellations do not get through, all orders of a run keep the state in which they were accepted. -/
theorem books_accepted (live : engine.options.environment.dryRun = false)
    (never : ¬script.Cancels engine.options.environment) (bars : List Bar) :
    ∀ book ∈ engine.books script bars, ∀ order ∈ book.orders, order.status = script.accepted := by
  have carries := PaperScript.accepted_carries script engine.options.environment never
  have start : PaperScript.Since (World.recorded ⟨0, PaperBook.empty⟩).venue.journal
      (fun _ book => ∀ order ∈ book.orders, order.status = script.accepted) (World.recorded ⟨0, PaperBook.empty⟩) :=
    PaperScript.Since.start fun _ among => absurd among List.not_mem_nil
  obtain ⟨notes, written, accepted⟩ := after_keeps (carries.keeps live _) start bars
  intro book member
  apply accepted book
  rw [books, show (engine.paperRun script bars).world.venue.journal = notes from written] at member
  exact member

/-- When entry orders are open at the same time. -/
structure Overlaps (engine : Engine) (script : PaperScript) : Prop where
  journal : ∀ bars, (engine.paperRun script bars).state = (engine.after script.venue ⟨0, .empty⟩ bars).state ∧
    (engine.paperRun script bars).world.inner = (engine.after script.venue ⟨0, .empty⟩ bars).world
  /-- A bar adds at most one entry order, so two of them are from different submissions. -/
  single : ∀ bars bar,
    (engine.lastBook script (bars ++ [bar])).entries.length ≤ (engine.lastBook script bars).entries.length + 1
  /-- At any point of a run, more than one entry order is open if and only if cancellations do not get through, orders
  are open when they are accepted, and more than one entry order was accepted. -/
  overlap : ∀ bars, ∀ book ∈ engine.books script bars, 2 ≤ book.openEntries.length ↔
    ¬script.Cancels engine.options.environment ∧ script.accepted.isOpen = true ∧ 2 ≤ book.entries.length

theorem overlaps (follows : engine.strategy.Follows blueprint) (live : engine.options.environment.dryRun = false)
    (script : PaperScript) : engine.Overlaps script where
  journal := engine.paperRun_eq script
  single bars bar := by
    obtain ⟨more, single, _, bounded, _⟩ := bar_bounded follows live script bars bar fun _ _ => rfl
    rw [PaperBook.entries_length, PaperBook.entries_length]
    exact Nat.le_trans bounded (Nat.add_le_add_left single _)
  overlap bars book visited := by
    constructor
    · intro two
      have never : ¬script.Cancels engine.options.environment := by
        intro through
        have one := books_bounded follows live through bars book visited
        rw [← PaperBook.openEntries_length] at one
        omega
      obtain ⟨order, member⟩ := List.exists_mem_of_length_pos (Nat.lt_of_lt_of_le Nat.zero_lt_two two)
      obtain ⟨isEntry, isOpen⟩ := List.mem_filter.mp member
      have accepted := books_accepted live never bars book visited order (List.mem_filter.mp isEntry).1
      exact ⟨never, accepted ▸ isOpen, Nat.le_trans two (List.length_filter_le _ _)⟩
    · rintro ⟨never, isOpen, two⟩
      have all : book.openEntries = book.entries := by
        apply List.filter_eq_self.mpr
        intro order member
        have accepted := books_accepted live never bars book visited order (List.mem_filter.mp member).1
        rw [Order.isOpen, accepted]
        exact isOpen
      rw [all]
      exact two

end Engine

/-- In a live run of a compiled strategy at the paper venue, with every script and every sequence of bars, two entry
orders are open together exactly where cancellations do not get through, orders are open when they are accepted, and a
second entry order was accepted. -/
theorem open_entries_overlap_iff {registry : Registry} {json : Json} {strategy : Strategy} {options : EngineOptions}
    {engine : Engine} (compiled : Strategy.ofDocument registry json = .ok strategy)
    (bound : Engine.ofStrategy strategy registry options = .ok engine) (live : options.environment.dryRun = false)
    (script : PaperScript) : engine.Overlaps script := by
  obtain ⟨blueprint, follows, _, _⟩ := Strategy.ofDocument_follows compiled
  obtain ⟨sameStrategy, sameOptions⟩ := Engine.ofStrategy_keeps bound
  exact Engine.overlaps (sameStrategy.symm ▸ follows) (sameOptions.symm ▸ live) script

/-! ### An incomplete roll-back -/

/-- The second placement is rejected, and no order is cancelled. -/
def stubbornScript : PaperScript :=
  { PaperScript.plain with rejectedPlacements := [2], failingCancels := true }

/-- The stage and the open entry orders after some of the rising bars. -/
def Engine.openEntriesAfter (engine : Engine) (count : Nat) : Stage × List String :=
  ((engine.paperRun stubbornScript (risingBars.take count)).state.stage,
    (engine.lastBook stubbornScript (risingBars.take count)).openEntries.map Order.id)

set_option maxRecDepth 100000 in
/-- The stop is rejected, and the entry in front of it is not taken back. The strategy is still armed, and the next bar
submits the plan again, with an entry of its own. -/
theorem stubborn_roll_back_overlaps :
    ∃ strategy engine, Strategy.ofDocument .empty breakoutDocument = .ok strategy ∧
      Engine.ofStrategy strategy .empty liveOptions = .ok engine ∧ engine.Overlaps stubbornScript ∧
      ¬stubbornScript.Cancels engine.options.environment ∧
      2 ≤ (engine.lastBook stubbornScript (risingBars.take 3)).openEntries.length := by
  have passed : Engine.passes .empty breakoutDocument liveOptions (fun engine =>
      decide (2 ≤ (engine.lastBook stubbornScript (risingBars.take 3)).openEntries.length)) = true := by decide +kernel
  obtain ⟨strategy, engine, compiled, bound, two⟩ := Engine.passes_binds passed
  have overlaps := open_entries_overlap_iff compiled bound rfl stubbornScript
  have two := of_decide_eq_true two
  exact ⟨strategy, engine, compiled, bound, overlaps, ((overlaps.overlap _ _ List.mem_cons_self).mp two).1, two⟩

set_option maxRecDepth 100000 in
/-- Two entry orders of different submissions are open at the end of a run. -/
theorem stubborn_breakout_has_two_open_entries :
    ∃ strategy engine, Strategy.ofDocument .empty breakoutDocument = .ok strategy ∧
      Engine.ofStrategy strategy .empty liveOptions = .ok engine ∧
      [1, 2, 3].map engine.openEntriesAfter =
        [(.armed, []), (.armed, ["paper-1"]), (.placed, ["paper-1", "paper-2"])] := by
  have passed : Engine.passes .empty breakoutDocument liveOptions (fun engine =>
      decide ([1, 2, 3].map engine.openEntriesAfter =
        [(.armed, []), (.armed, ["paper-1"]), (.placed, ["paper-1", "paper-2"])])) = true := by decide +kernel
  obtain ⟨strategy, engine, compiled, bound, opened⟩ := Engine.passes_binds passed
  exact ⟨strategy, engine, compiled, bound, of_decide_eq_true opened⟩

end TradingStrategy

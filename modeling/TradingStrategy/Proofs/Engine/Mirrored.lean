import TradingStrategy.Proofs.Engine.Unique
import TradingStrategy.Proofs.Venue.Mirrors

/-!
A step of an engine at a venue that it shares.

Owns:
- that an unhindered paper venue answers the query for own orders at once;
- the step: whatever end it comes to at a venue of one's own, it comes to the same end at a shared one, under other
  names for the orders;
- the same for a whole bar.

The state is carried in the names of the engine's own venue. A submission chooses the names of its orders in the shared
book, and every order before it keeps the one it has.
-/

namespace TradingStrategy

open PaperBook (Mirrors MirrorStep among)

variable {script : PaperScript} {engine : Engine} {blueprint : Blueprint} {state : EngineState}
  {rename : String → String} {world shared : World PaperBook} {turn : Turn PaperBook}

/-- The book has all orders that a state or its log mentions. -/
def EngineState.KnownIn (state : EngineState) (book : PaperBook) : Prop :=
  ∀ id ∈ state.ids, id ∈ book.ids

namespace EngineState.KnownIn

variable {book later : PaperBook} {extended : String → String}

theorem grown (known : state.KnownIn book) (grown : PaperBook.Extends rename book extended later) :
    state.KnownIn later :=
  fun id member => grown.ids id (known id member)

/-- Under extended names a state keeps those that it has. -/
theorem renamed_eq (known : state.KnownIn book) (grown : PaperBook.Extends rename book extended later) :
    state.renamed extended = state.renamed rename :=
  EngineState.renamed_congr fun id member => grown.names id (known id member)

theorem record (known : state.KnownIn book) (timestamp : Calendar.Instant) {event : LogEvent}
    (nameless : event.ids = []) : (state.record timestamp event).KnownIn book := by
  intro id member
  rw [EngineState.ids_record, nameless, List.append_nil] at member
  exact known id member

theorem commit (known : state.KnownIn book) {staged : Staged} (mentioned : ∀ id ∈ staged.ids, id ∈ book.ids)
    (transition : Transition) (timeout : Nat) (timestamp : Calendar.Instant) :
    (state.commit transition timeout staged timestamp).KnownIn book :=
  fun id member => (EngineState.mem_ids_commit member).elim (known id) (mentioned id)

theorem logError {σ : Type} {turn : Turn σ} (known : turn.state.KnownIn book) (timestamp : Calendar.Instant) :
    (Engine.logError timestamp turn).state.KnownIn book := by
  unfold Engine.logError
  split
  · exact known
  · exact known.record timestamp rfl

end EngineState.KnownIn

namespace Engine

/-- An unhindered paper venue shows the own orders as they are in its book. -/
theorem unhindered_ownOrders (unhindered : script.IsUnhindered) (live : engine.options.environment.dryRun = false)
    (state : EngineState) (world : World PaperBook) :
    engine.ownOrders script.venue state world =
      (.ok (among (state.orders.map Order.id) (world.venue.openOrders (engine.planSymbol state))), world) := by
  unfold ownOrders
  split
  · next none =>
    rw [List.isEmpty_iff.mp none, List.map_nil, PaperBook.among_eq_nil fun _ _ => List.not_mem_nil]
  · rw [if_neg (by simp [live]), unhindered.queryOpen live]
    rfl

section
variable (unhindered : script.IsUnhindered) (live : engine.options.environment.dryRun = false)
include unhindered live

/-- The venue shows the own orders among those of others, under their names there. -/
theorem shared_ownOrders (mirrors : Mirrors rename world.venue shared.venue) (known : state.KnownIn world.venue)
    {orders : List Order} {after : World PaperBook}
    (asked : engine.ownOrders script.venue state world = (.ok orders, after)) :
    orders.Sublist world.venue.orders ∧ after = world ∧
      engine.ownOrders script.venue (state.renamed rename) shared =
        (.ok (orders.map (Order.renamed rename)), shared) := by
  rw [unhindered_ownOrders unhindered live] at asked
  obtain ⟨same, rfl⟩ := Prod.mk.inj asked
  obtain rfl := Except.ok.inj same
  have ownIds : ∀ id ∈ state.orders.map Order.id, id ∈ world.venue.ids :=
    fun id member => known id (List.mem_append_left _ member)
  have sameSymbol : engine.planSymbol (state.renamed rename) = engine.planSymbol state := rfl
  have sameIds : (state.renamed rename).orders.map Order.id = (state.orders.map Order.id).map rename :=
    Order.renamed_ids rename state.orders
  refine ⟨List.filter_sublist.trans List.filter_sublist, rfl, ?_⟩
  rw [unhindered_ownOrders unhindered live, sameSymbol, sameIds, mirrors.shown ownIds]

/-- Cancelled in both books: the same entries, and the report tells their names there. -/
theorem shared_cancelEntries (mirrors : Mirrors rename world.venue shared.venue) (symbol : String)
    {orders : List Order} (part : orders.Sublist world.venue.orders) {report : CancelReport} {after : World PaperBook}
    (cancelled : script.venue.cancelEntries engine.options.environment symbol orders world = (report, after)) :
    ∃ sharedAfter, MirrorStep rename world.venue shared.venue rename after.venue sharedAfter.venue ∧
      (∀ id ∈ report.cancelled ++ report.failed.map CancelFailure.id, id ∈ world.venue.ids) ∧
      script.venue.cancelEntries engine.options.environment symbol (orders.map (Order.renamed rename)) shared =
        (report.renamed rename, sharedAfter) := by
  have through := unhindered.through engine.options.environment
  have sharedPart : (orders.map (Order.renamed rename)).Sublist shared.venue.orders := by
    have ownPart := part.map (Order.renamed rename)
    rw [← mirrors.orders] at ownPart
    exact ownPart.trans List.filter_sublist
  obtain ⟨_, complete, marked⟩ := PaperScript.cancelEntries_complete live through symbol mirrors.numbered part
  obtain ⟨sharedAfter, sharedComplete, sharedMarked⟩ :=
    PaperScript.cancelEntries_complete live through symbol mirrors.sharedNumbered sharedPart
  rw [Venue.openEntries_renamed, Order.renamed_ids] at sharedComplete sharedMarked
  rw [cancelled] at complete
  obtain ⟨rfl, rfl⟩ := Prod.mk.inj complete
  have known : ∀ id ∈ (Venue.openEntries symbol orders).map Order.id, id ∈ world.venue.ids :=
    fun id member => ((List.filter_sublist.trans part).map Order.id).subset member
  refine ⟨sharedAfter, mirrors.withdraw known marked sharedMarked, ?_, sharedComplete⟩
  rw [List.map_nil, List.append_nil]
  exact known

variable {timestamp : Calendar.Instant} (parts : ∀ target ∈ blueprint.plan.targets, IsPart target.ratio)
  (holds : state.Holds blueprint)
include parts holds

/-- Submitted to both books: the same bracket, whose orders get their names in the shared book. -/
theorem shared_submission (mirrors : Mirrors rename world.venue shared.venue) {plan : ResolvedPlan}
    (armed : state.stage = .armed) (frozen : state.frozen = some plan) {orders : List Order} {after : World PaperBook}
    (submitted : script.venue.submit engine.options.environment plan world = (.ok orders, after)) :
    ∃ extended sharedAfter, MirrorStep rename world.venue shared.venue extended after.venue sharedAfter.venue ∧
      (∀ id ∈ orders.map Order.id, id ∈ after.venue.ids) ∧
      script.venue.submit engine.options.environment plan shared =
        (.ok (orders.map (Order.renamed extended)), sharedAfter) := by
  rcases unhindered.submission live parts holds armed frozen mirrors.numbered with
    ⟨fault, faulty⟩ | ⟨legs, _, bracketed, answered, added⟩
  · rw [Venue.submit_faulty faulty] at submitted
    exact absurd submitted (by simp)
  rcases unhindered.submission live parts holds armed frozen mirrors.sharedNumbered with
    ⟨fault, faulty⟩ | ⟨sameLegs, sharedAfter, sameBracket, sharedAnswered, sharedAdded⟩
  · rw [faulty] at bracketed
    contradiction
  obtain rfl := Except.ok.inj (bracketed.symm.trans sameBracket)
  rw [submitted] at answered
  obtain ⟨same, rfl⟩ := Prod.mk.inj answered
  obtain rfl := Except.ok.inj same
  obtain ⟨extended, step, renamed⟩ := mirrors.add added sharedAdded
  refine ⟨extended, sharedAfter, step, ?_, renamed.symm ▸ sharedAnswered⟩
  intro id member
  rw [PaperBook.ids, added, List.map_append]
  exact List.mem_append_right _ member

/-- A placement is followed by one in the shared book. No other end brings orders to the books, so names are chosen here
only. -/
theorem placed_mirrored (mirrors : Mirrors rename world.venue shared.venue) (known : state.KnownIn world.venue)
    {plan : ResolvedPlan} {assessment : RiskAssessment} {orders : List Order} {after : World PaperBook}
    (armed : state.stage = .armed) (frozen : state.frozen = some plan)
    (fires : evaluateBool state.context blueprint.trigger = .ok true)
    (gated : plan.gate engine.strategy.maxRisk = .ok assessment)
    (submitted : script.venue.submit engine.options.environment plan world = (.ok orders, after)) :
    let timeout := engine.strategy.execution.entryTimeoutBars
    let placed := state.commit (blueprint.placing timeout) timeout
      ⟨none, some timeout, orders, [.riskAccepted assessment.worst engine.strategy.maxRisk assessment.ratio,
        .submitted (orders.map Order.id), .action "Trigger fired, order plan submitted"]⟩ timestamp
    ∃ extended sharedAfter, MirrorStep rename world.venue shared.venue extended after.venue sharedAfter.venue ∧
      placed.KnownIn after.venue ∧
      Advances engine blueprint script.venue (state.renamed rename) timestamp shared
        ⟨.ok (.moved .armed .placed), placed.renamed extended, sharedAfter⟩ := by
  intro timeout placed
  obtain ⟨extended, sharedAfter, step, new, sharedSubmitted⟩ :=
    shared_submission unhindered live parts holds mirrors armed frozen submitted
  refine ⟨extended, sharedAfter, step, (known.grown step.grown).commit ?_ _ _ timestamp, ?_⟩
  · intro id member
    exact new id (Staged.mem_placing_ids member)
  · rw [EngineState.renamed_commit, known.renamed_eq step.grown]
    simp only [Staged.renamed, List.map_cons, List.map_nil, LogEvent.renamed, ← Order.renamed_ids]
    exact .placed plan assessment _ sharedAfter armed frozen fires gated sharedSubmitted

omit parts holds in
/-- An exit cancels the same entries in both books. -/
theorem exited_mirrored (mirrors : Mirrors rename world.venue shared.venue) (known : state.KnownIn world.venue)
    {orders : List Order} {after : World PaperBook} {report : CancelReport} (managing : state.stage = .managing)
    (fires : evaluateBool state.context blueprint.invalidate = .ok true)
    (part : orders.Sublist world.venue.orders)
    (sharedAsked : engine.ownOrders script.venue (state.renamed rename) shared =
      (.ok (orders.map (Order.renamed rename)), shared))
    (cancelled : script.venue.cancelEntries engine.options.environment (engine.planSymbol state) orders world =
      (report, after)) :
    let exited := state.commit blueprint.exiting engine.strategy.execution.entryTimeoutBars
      ⟨none, none, [], [.entriesCancelled report, .action "Invalidated, exiting"]⟩ timestamp
    ∃ sharedAfter, MirrorStep rename world.venue shared.venue rename after.venue sharedAfter.venue ∧
      exited.KnownIn after.venue ∧
      Advances engine blueprint script.venue (state.renamed rename) timestamp shared
        ⟨.ok (.moved .managing .exited), exited.renamed rename, sharedAfter⟩ := by
  intro exited
  obtain ⟨sharedAfter, step, reported, sharedCancelled⟩ :=
    shared_cancelEntries unhindered live mirrors (engine.planSymbol state) part cancelled
  refine ⟨sharedAfter, step, (known.grown step.grown).commit ?_ _ _ timestamp, ?_⟩
  · intro id member
    rw [Staged.exiting_ids] at member
    exact step.grown.ids id (reported id member)
  · rw [EngineState.renamed_commit]
    exact .exited _ shared sharedAfter _ managing fires sharedAsked sharedCancelled

/-- Whatever end a step comes to at a venue of its own, it comes to the same at a shared one under other names. -/
theorem Advances.mirrored (mirrors : Mirrors rename world.venue shared.venue) (known : state.KnownIn world.venue)
    (advances : Advances engine blueprint script.venue state timestamp world turn) :
    ∃ extended after, MirrorStep rename world.venue shared.venue extended turn.world.venue after.venue ∧
      turn.state.KnownIn turn.world.venue ∧
      Advances engine blueprint script.venue (state.renamed rename) timestamp shared
        ⟨turn.result, turn.state.renamed extended, after⟩ := by
  have commit (staged : Staged) (nameless : staged.ids = []) (transition : Transition) (timeout : Nat) :
      (state.commit transition timeout staged timestamp).KnownIn world.venue :=
    known.commit (by simp [nameless]) transition timeout timestamp
  cases advances with
  | undecided condition error rule failed =>
    exact ⟨rename, shared, mirrors.stay, known, .undecided condition error rule failed⟩
  | stayed condition rule isFalse patient =>
    exact ⟨rename, shared, mirrors.stay, known, .stayed condition rule isFalse patient⟩
  | unresolved error idle fires failed =>
    exact ⟨rename, shared, mirrors.stay, known, .unresolved error idle fires failed⟩
  | armed plan idle fires resolved =>
    refine ⟨rename, shared, mirrors.stay, commit _ rfl _ _, ?_⟩
    rw [EngineState.renamed_commit]
    exact .armed plan idle fires resolved
  | refused plan reason armed frozen fires gated =>
    refine ⟨rename, shared, mirrors.stay, known.record timestamp rfl, ?_⟩
    rw [EngineState.renamed_record]
    exact .refused plan reason armed frozen fires gated
  | unsubmitted plan assessment error after armed frozen fires gated submitted =>
    rcases unhindered.submission live parts holds armed frozen mirrors.numbered with
      ⟨fault, faulty⟩ | ⟨legs, _, bracketed, answered, added⟩
    · rw [Venue.submit_faulty faulty] at submitted
      obtain ⟨same, rfl⟩ := Prod.mk.inj submitted
      obtain rfl := Except.error.inj same
      refine ⟨rename, shared, mirrors.stay, known, ?_⟩
      exact .unsubmitted plan assessment _ shared armed frozen fires gated (Venue.submit_faulty faulty shared)
    · rw [submitted] at answered
      exact absurd answered (by simp)
  | placed plan assessment orders after armed frozen fires gated submitted =>
    exact placed_mirrored unhindered live parts holds mirrors known armed frozen fires gated submitted
  | gaveUp armed isFalse late =>
    refine ⟨rename, shared, mirrors.stay, commit _ rfl _ _, ?_⟩
    rw [EngineState.renamed_commit]
    exact .gaveUp armed isFalse late
  | unqueried error after placed asked =>
    rw [unhindered_ownOrders unhindered live] at asked
    exact absurd asked (by simp)
  | waited orders after placed asked noneLive =>
    obtain ⟨_, rfl, sharedAsked⟩ := shared_ownOrders unhindered live mirrors known asked
    refine ⟨rename, shared, mirrors.stay, known, ?_⟩
    exact .waited _ shared placed sharedAsked ((Venue.any_isLive_renamed _).trans noneLive)
  | managed orders after placed asked isLive =>
    obtain ⟨_, rfl, sharedAsked⟩ := shared_ownOrders unhindered live mirrors known asked
    refine ⟨rename, shared, mirrors.stay, commit _ rfl _ _, ?_⟩
    rw [EngineState.renamed_commit]
    exact .managed _ shared placed sharedAsked ((Venue.any_isLive_renamed _).trans isLive)
  | uncancelled error after managing fires asked =>
    rw [unhindered_ownOrders unhindered live] at asked
    exact absurd asked (by simp)
  | exited orders between after report managing fires asked cancelled =>
    obtain ⟨part, rfl, sharedAsked⟩ := shared_ownOrders unhindered live mirrors known asked
    exact ⟨rename, exited_mirrored unhindered live mirrors known managing fires part sharedAsked cancelled⟩
  | startedOver exited =>
    refine ⟨rename, shared, mirrors.stay, commit _ rfl _ _, ?_⟩
    rw [EngineState.renamed_commit]
    exact .startedOver exited

/-- A bar has the same outcome or error at a shared venue, and leaves the same state under other names. -/
theorem Processes.mirrored (follows : engine.strategy.Follows blueprint)
    (mirrors : Mirrors rename world.venue shared.venue) (known : state.KnownIn world.venue) {bar : Bar}
    (processes : Processes engine blueprint script.venue state bar world turn) :
    ∃ extended after, MirrorStep rename world.venue shared.venue extended turn.world.venue after.venue ∧
      turn.state.KnownIn turn.world.venue ∧
      engine.processBar script.venue (state.renamed rename) bar shared =
        ⟨turn.result, turn.state.renamed extended, after⟩ := by
  have sameRejection : engine.rejection? (state.renamed rename) bar = engine.rejection? state bar := rfl
  unfold processBar
  rw [sameRejection]
  cases processes with
  | rejected error why =>
    rw [why]
    exact ⟨rename, shared, mirrors.stay, known, rfl⟩
  | skipped accepted closed =>
    rw [accepted, closed]
    exact ⟨rename, shared, mirrors.stay, known, rfl⟩
  | looked ended accepted opens advances =>
    rw [accepted, opens]
    have observed : (engine.observed state bar).KnownIn world.venue := by
      rw [EngineState.KnownIn, ids_observed]
      exact known
    obtain ⟨extended, after, step, knownAfter, again⟩ :=
      advances.mirrored unhindered live parts (observed_holds holds bar) mirrors observed
    have sameStep := again.advance_eq follows ((observed_holds holds bar).renamed rename)
    rw [renamed_observed engine engine.options.environment] at sameStep
    have sameWorld : (logError bar.timestamp ended).world = ended.world := by
      obtain ⟨log, same⟩ := logError_eq bar.timestamp ended
      rw [same]
    rw [sameWorld]
    refine ⟨extended, after, step, knownAfter.logError bar.timestamp, ?_⟩
    exact (congrArg (logError bar.timestamp) sameStep).trans (logError_renamed bar.timestamp ended after)

end

end Engine

end TradingStrategy

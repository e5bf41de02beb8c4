import TradingStrategy.Proofs.Engine.Unique
import TradingStrategy.Proofs.Order.Legs
import TradingStrategy.Proofs.Run.Consistency
import TradingStrategy.Proofs.Run.Exposure
import TradingStrategy.Proofs.Run.Lifecycle
import TradingStrategy.Proofs.Venue.Plain

/-!
Dry runs.

Owns:
- `Engine.Shadowed`: what holds of a live run on the plain paper venue, so that a dry run can go along with it;
- the step: whatever end the live one comes to, the dry one comes to the same end under other names for the orders;
- `dry_run_refines_live`: a dry run of a compiled strategy and a live run on the plain paper venue agree on every bar.

The names are chosen along the run. A submission gives its new orders the made-up names, and every order before it keeps
the one it has.
-/

namespace TradingStrategy

namespace Engine

open PaperBook (Extends)

variable {τ : Type} {engine : Engine} {blueprint : Blueprint} {state : EngineState} {rename : String → String}
  {book : PaperBook}

/-! ### What a dry run needs of a live one -/

/-- The book has all orders that the state mentions, the own orders work as they were accepted, and their other names
are apart. -/
structure Shadowed (rename : String → String) (state : EngineState) (book : PaperBook) : Prop where
  known : ∀ id ∈ state.ids, id ∈ book.orders.map Order.id
  working : ∀ order ∈ state.orders, order.status = .working
  apart : ((state.orders.map Order.id).map rename).Nodup

theorem Shadowed.record (shadowed : Shadowed rename state book) (timestamp : Calendar.Instant) {event : LogEvent}
    (nameless : event.ids = []) : Shadowed rename (state.record timestamp event) book where
  known id member := by
    rw [EngineState.ids_record, nameless, List.append_nil] at member
    exact shadowed.known id member
  working := shadowed.working
  apart := shadowed.apart

theorem Shadowed.observed (shadowed : Shadowed rename state book) (engine : Engine) (bar : Bar) :
    Shadowed rename (engine.observed state bar) book := by
  have sameOrders := (observed_stage engine state bar).2.2
  exact ⟨ids_observed engine state bar ▸ shadowed.known, sameOrders.symm ▸ shadowed.working,
    sameOrders.symm ▸ shadowed.apart⟩

theorem Shadowed.ofIds (shadowed : Shadowed rename state book) {later : PaperBook}
    (same : later.orders.map Order.id = book.orders.map Order.id) : Shadowed rename state later :=
  ⟨same ▸ shadowed.known, shadowed.working, shadowed.apart⟩

/-- A commitment without new orders mentions orders of the book only. -/
theorem Shadowed.commit (shadowed : Shadowed rename state book) {staged : Staged} (noOrders : staged.orders = [])
    (mentioned : ∀ id ∈ staged.ids, id ∈ book.orders.map Order.id) (transition : Transition) (timeout : Nat)
    (timestamp : Calendar.Instant) : Shadowed rename (state.commit transition timeout staged timestamp) book := by
  have known : ∀ id ∈ (state.commit transition timeout staged timestamp).ids, id ∈ book.orders.map Order.id :=
    fun id member => (EngineState.mem_ids_commit member).elim (shadowed.known id) (mentioned id)
  rcases state.commit_orders transition timeout staged timestamp with none | same
  · rw [noOrders] at none
    exact ⟨known, by simp [none], by simp [none]⟩
  · rw [noOrders, List.append_nil] at same
    exact ⟨known, same ▸ shadowed.working, same ▸ shadowed.apart⟩

/-- The commitment of a bracket that has come to the book, under names that make its orders the made-up ones. -/
theorem Shadowed.submission {extended : String → String} {later : PaperBook} (shadowed : Shadowed rename state book)
    (grown : Extends rename book extended later) (unsubmitted : state.orders = []) {plan : ResolvedPlan}
    {legs : List OrderLeg} (bracketed : plan.bracket = .ok legs) {count : Nat}
    (added : later.orders = book.orders ++ PaperScript.plain.ordersOf count legs)
    (named : (PaperScript.plain.ordersOf count legs).map (Order.renamed extended) = dryOrders 1 legs)
    {staged : Staged} (submitted : staged.orders = PaperScript.plain.ordersOf count legs)
    (mentioned : ∀ id ∈ staged.ids, id ∈ staged.orders.map Order.id) (transition : Transition) (timeout : Nat)
    (timestamp : Calendar.Instant) : Shadowed extended (state.commit transition timeout staged timestamp) later := by
  have own : (state.commit transition timeout staged timestamp).orders = PaperScript.plain.ordersOf count legs := by
    rw [← submitted]
    rcases state.commit_orders transition timeout staged timestamp with only | appended
    · exact only
    · rw [appended, unsubmitted, List.nil_append]
  refine ⟨?known, ?working, ?apart⟩
  case known =>
    intro id member
    rcases EngineState.mem_ids_commit member with ofState | ofStaged
    · exact grown.ids id (shadowed.known id ofState)
    · rw [added, List.map_append, ← submitted]
      exact List.mem_append_right _ (mentioned id ofStaged)
  case working =>
    rw [own]
    exact PaperScript.ordersOf_status _ _
  case apart =>
    rw [own, ← Order.renamed_ids, named]
    exact Venue.dryOrders_distinct bracketed

/-! ### The own orders -/

theorem dry_ownOrders (dry : engine.options.environment.dryRun = true) (venue : Venue τ) (state : EngineState)
    (world : World τ) : engine.ownOrders venue state world = (.ok state.orders, world) := by
  unfold ownOrders
  rw [if_pos dry]
  split
  · next none => rw [List.isEmpty_iff.mp none]
  · rfl

/-- While the strategy works, the plain paper venue shows its own orders as they were accepted. -/
theorem plain_ownOrders (live : engine.options.environment.dryRun = false) {world : World PaperBook}
    (numbered : world.venue.Numbered) (tends : Tends state world.venue)
    (busy : state.stage ∈ [Stage.placed, .managing]) (working : ∀ order ∈ state.orders, order.status = .working) :
    engine.ownOrders PaperScript.plain.venue state world = (.ok state.orders, world) := by
  obtain ⟨base, plan, parts, _, frozen, bracketed⟩ := tends.working busy
  have symbol : engine.planSymbol state = plan.symbol := by rw [planSymbol, frozen]
  have distinct := numbered.nodup
  rw [parts, List.map_append] at distinct
  -- The book may have older orders for the symbol, some of them open: exit legs of earlier rounds.
  have foreign : base.filter (fun order => (state.orders.map Order.id).contains order.id) = [] := by
    apply List.filter_eq_nil_iff.mpr
    intro order member own
    exact (List.nodup_append.mp distinct).2.2 _ (List.mem_map_of_mem member) _ (List.contains_iff_mem.mp own) rfl
  have shown : state.orders.filter (fun order => order.symbol == plan.symbol && (order.isOpen || order.isLive)) =
      state.orders := by
    apply List.filter_eq_self.mpr
    intro order member
    have sameSymbol : order.symbol = plan.symbol :=
      (ResolvedPlan.bracket_legs bracketed).2 order.leg (List.mem_map_of_mem member)
    simp [sameSymbol, Order.isLive, working order member, OrderStatus.isLive]
  have own : state.orders.filter (fun order => (state.orders.map Order.id).contains order.id) = state.orders :=
    List.filter_eq_self.mpr fun order member => List.contains_iff_mem.mpr (List.mem_map_of_mem member)
  have answer : (world.venue.openOrders plan.symbol).filter
      (fun order => (state.orders.map Order.id).contains order.id) = state.orders := by
    rw [PaperBook.openOrders, List.filter_comm, parts, List.filter_append, foreign, own, List.nil_append, shown]
  simp only [ownOrders, live, Bool.false_eq_true, if_false, PaperScript.plain_queryOpen live, symbol, answer]
  split
  · next none => rw [List.isEmpty_iff.mp none]
  · rfl

/-! ### The same step -/

/-- New orders can be given the names that a dry run makes up for them. Those in the book keep theirs. -/
theorem exists_dry_names (rename : String → String) {legs : List OrderLeg} {count : Nat} {later : PaperBook}
    (numbered : later.Numbered) (added : later.orders = book.orders ++ PaperScript.plain.ordersOf count legs) :
    ∃ extended, Extends rename book extended later ∧
      (PaperScript.plain.ordersOf count legs).map (Order.renamed extended) = dryOrders 1 legs := by
  have sameLegs : (PaperScript.plain.ordersOf count legs).map Order.leg = (dryOrders 1 legs).map Order.leg := by
    rw [PaperScript.ordersOf_leg, Venue.dryOrders_legs]
  have sameLength : (PaperScript.plain.ordersOf count legs).length = ((dryOrders 1 legs).map Order.id).length := by
    simpa only [List.length_map] using congrArg List.length sameLegs
  obtain ⟨extended, grown, names⟩ := PaperBook.exists_extends rename numbered added sameLength
  exact ⟨extended, grown, Order.renamed_eq (PaperScript.plain.ordersOf_new count legs) (Venue.dryOrders_new 1 legs)
    sameLegs names⟩

section
variable {environment : Environment} {world : World PaperBook} {turn : Turn PaperBook} {timestamp : Calendar.Instant}
  (live : engine.options.environment.dryRun = false)
  (parts : ∀ target ∈ blueprint.plan.targets, IsPart target.ratio) (holds : state.Holds blueprint)
  (numbered : world.venue.Numbered)
include live parts holds numbered

/-- A live placement has a bracket behind it, and so has a dry one. No other end brings orders to the book, so names are
chosen here only. -/
theorem placed_shadowed (shadowed : Shadowed rename state world.venue) {plan : ResolvedPlan}
    {assessment : RiskAssessment} {orders : List Order} {after : World PaperBook} (armed : state.stage = .armed)
    (frozen : state.frozen = some plan) (fires : evaluateBool state.context blueprint.trigger = .ok true)
    (gated : plan.gate engine.strategy.maxRisk = .ok assessment)
    (submitted : PaperScript.plain.venue.submit engine.options.environment plan world = (.ok orders, after))
    (dry : environment.dryRun = true) (venue : Venue τ) (other : World τ) :
    let timeout := engine.strategy.execution.entryTimeoutBars
    let placed := state.commit (blueprint.placing timeout) timeout
      ⟨none, some timeout, orders, [.riskAccepted assessment.worst engine.strategy.maxRisk assessment.ratio,
        .submitted (orders.map Order.id), .action "Trigger fired, order plan submitted"]⟩ timestamp
    ∃ extended, Extends rename world.venue extended after.venue ∧ Shadowed extended placed after.venue ∧
      Advances (engine.under environment) blueprint venue (state.renamed rename) timestamp other
        ⟨.ok (.moved .armed .placed), placed.renamed extended, other⟩ := by
  intro timeout placed
  rcases PaperScript.plain_unhindered.submission live parts holds armed frozen numbered with
    ⟨fault, faulty⟩ | ⟨legs, _, bracketed, answered, added⟩
  · rw [Venue.submit_faulty faulty] at submitted
    exact absurd submitted (by simp)
  rw [submitted] at answered
  obtain ⟨same, rfl⟩ := Prod.mk.inj answered
  obtain rfl := Except.ok.inj same
  obtain ⟨extended, grown, named⟩ := exists_dry_names rename (numbered.ordersOf added) added
  refine ⟨extended, grown, shadowed.submission grown (holds.unsubmitted (.inr armed)) bracketed added named rfl
    (fun _ => Staged.mem_placing_ids) _ _ timestamp, ?_⟩
  have names := congrArg (List.map Order.id) named
  rw [Order.renamed_ids] at names
  have sameState : state.renamed extended = state.renamed rename :=
    EngineState.renamed_congr fun id member => grown.names id (shadowed.known id member)
  rw [EngineState.renamed_commit, sameState]
  simp only [Staged.renamed, List.map_cons, List.map_nil, LogEvent.renamed, named, names]
  exact .placed plan assessment _ other armed frozen fires gated (Venue.dry_submit dry bracketed other)

omit parts holds in
/-- A live exit cancels what is still an entry. The orders stay in the book under the same ids, and a dry exit has
nothing to cancel. -/
theorem exited_shadowed (tends : Tends state world.venue) (shadowed : Shadowed rename state world.venue)
    {after : World PaperBook} {report : CancelReport} (managing : state.stage = .managing)
    (fires : evaluateBool state.context blueprint.invalidate = .ok true)
    (cancelled : PaperScript.plain.venue.cancelEntries engine.options.environment (engine.planSymbol state) state.orders
      world = (report, after))
    (dry : environment.dryRun = true) (venue : Venue τ) (other : World τ) :
    let exited := state.commit blueprint.exiting engine.strategy.execution.entryTimeoutBars
      ⟨none, none, [], [.entriesCancelled report, .action "Invalidated, exiting"]⟩ timestamp
    Extends rename world.venue rename after.venue ∧ Shadowed rename exited after.venue ∧
      Advances (engine.under environment) blueprint venue (state.renamed rename) timestamp other
        ⟨.ok (.moved .managing .exited), exited.renamed rename, other⟩ := by
  intro exited
  obtain ⟨base, _, layout, _⟩ := tends.working (by simp [managing])
  obtain ⟨_, complete, marked⟩ := PaperScript.cancelEntries_complete live
    (PaperScript.plain_cancels engine.options.environment) (engine.planSymbol state) numbered
    (layout ▸ List.sublist_append_right base state.orders)
  rw [cancelled] at complete
  obtain ⟨rfl, rfl⟩ := Prod.mk.inj complete
  have sameIds : after.venue.orders.map Order.id = world.venue.orders.map Order.id := by
    rw [marked, List.map_map]
    exact List.map_congr_left fun order _ => order.withdrawn_id _
  refine ⟨⟨fun id member => sameIds ▸ member, fun _ _ => rfl⟩,
    (shadowed.ofIds sameIds).commit rfl ?mentioned _ _ timestamp, ?dry⟩
  case mentioned =>
    intro id member
    rw [Staged.exiting_ids, List.map_nil, List.append_nil] at member
    rw [sameIds, layout, List.map_append]
    exact List.mem_append_right _ ((List.filter_sublist.map Order.id).subset member)
  case dry =>
    rw [EngineState.renamed_commit]
    exact .exited _ other other _ managing fires (dry_ownOrders dry venue _ other)
      (Venue.dry_cancelEntries dry (engine.planSymbol state) state.orders other)

/-- Whatever end a live step comes to, a dry one comes to the same under other names, and its world stays. -/
theorem Advances.shadowed (tends : Tends state world.venue) (shadowed : Shadowed rename state world.venue)
    (advances : Advances engine blueprint PaperScript.plain.venue state timestamp world turn)
    (dry : environment.dryRun = true) (venue : Venue τ) (other : World τ) :
    ∃ extended, Extends rename world.venue extended turn.world.venue ∧
      Shadowed extended turn.state turn.world.venue ∧
      Advances (engine.under environment) blueprint venue (state.renamed rename) timestamp other
        ⟨turn.result, turn.state.renamed extended, other⟩ := by
  have commit (staged : Staged) (noOrders : staged.orders = []) (nameless : staged.ids = [])
      (transition : Transition) (timeout : Nat) :
      Shadowed rename (state.commit transition timeout staged timestamp) world.venue :=
    shadowed.commit noOrders (by simp [nameless]) transition timeout timestamp
  cases advances with
  | undecided condition error rule failed =>
    exact ⟨rename, .refl _ _, shadowed, .undecided condition error rule failed⟩
  | stayed condition rule isFalse patient =>
    exact ⟨rename, .refl _ _, shadowed, .stayed condition rule isFalse patient⟩
  | unresolved error idle fires failed =>
    exact ⟨rename, .refl _ _, shadowed, .unresolved error idle fires failed⟩
  | armed plan idle fires resolved =>
    refine ⟨rename, .refl _ _, commit _ rfl rfl _ _, ?_⟩
    rw [EngineState.renamed_commit]
    exact .armed plan idle fires resolved
  | refused plan reason armed frozen fires gated =>
    refine ⟨rename, .refl _ _, shadowed.record timestamp rfl, ?_⟩
    rw [EngineState.renamed_record]
    exact .refused plan reason armed frozen fires gated
  | unsubmitted plan assessment error after armed frozen fires gated submitted =>
    rcases PaperScript.plain_unhindered.submission live parts holds armed frozen numbered with
      ⟨fault, faulty⟩ | ⟨legs, _, bracketed, answered, added⟩
    · rw [Venue.submit_faulty faulty] at submitted
      obtain ⟨same, rfl⟩ := Prod.mk.inj submitted
      obtain rfl := Except.error.inj same
      refine ⟨rename, .refl _ _, shadowed, ?_⟩
      exact .unsubmitted plan assessment _ other armed frozen fires gated (Venue.submit_faulty faulty other)
    · rw [submitted] at answered
      exact absurd answered (by simp)
  | placed plan assessment orders after armed frozen fires gated submitted =>
    exact placed_shadowed live parts holds numbered shadowed armed frozen fires gated submitted dry venue other
  | gaveUp armed isFalse late =>
    refine ⟨rename, .refl _ _, commit _ rfl rfl _ _, ?_⟩
    rw [EngineState.renamed_commit]
    exact .gaveUp armed isFalse late
  | unqueried error after placed asked =>
    rw [plain_ownOrders live numbered tends (by simp [placed]) shadowed.working] at asked
    exact absurd asked (by simp)
  | waited orders after placed asked noneLive =>
    rw [plain_ownOrders live numbered tends (by simp [placed]) shadowed.working] at asked
    obtain ⟨same, rfl⟩ := Prod.mk.inj asked
    obtain rfl := Except.ok.inj same
    refine ⟨rename, .refl _ _, shadowed, ?_⟩
    exact .waited _ other placed (dry_ownOrders dry venue _ other) ((Venue.any_isLive_renamed _).trans noneLive)
  | managed orders after placed asked isLive =>
    rw [plain_ownOrders live numbered tends (by simp [placed]) shadowed.working] at asked
    obtain ⟨same, rfl⟩ := Prod.mk.inj asked
    obtain rfl := Except.ok.inj same
    refine ⟨rename, .refl _ _, commit _ rfl rfl _ _, ?_⟩
    rw [EngineState.renamed_commit]
    exact .managed _ other placed (dry_ownOrders dry venue _ other) ((Venue.any_isLive_renamed _).trans isLive)
  | uncancelled error after managing fires asked =>
    rw [plain_ownOrders live numbered tends (by simp [managing]) shadowed.working] at asked
    exact absurd asked (by simp)
  | exited orders between after report managing fires asked cancelled =>
    rw [plain_ownOrders live numbered tends (by simp [managing]) shadowed.working] at asked
    obtain ⟨same, rfl⟩ := Prod.mk.inj asked
    obtain rfl := Except.ok.inj same
    exact ⟨rename, exited_shadowed live numbered tends shadowed managing fires cancelled dry venue other⟩
  | startedOver exited =>
    refine ⟨rename, .refl _ _, commit _ rfl rfl _ _, ?_⟩
    rw [EngineState.renamed_commit]
    exact .startedOver exited

end

/-! ### The same bar -/

theorem Shadowed.logError {turn : Turn PaperBook} (shadowed : Shadowed rename turn.state turn.world.venue)
    (timestamp : Calendar.Instant) :
    Shadowed rename (logError timestamp turn).state (logError timestamp turn).world.venue := by
  unfold Engine.logError
  split
  · exact shadowed
  · exact shadowed.record timestamp rfl

variable {environment : Environment} {world : World PaperBook}

/-- A bar has the same outcome or error in a dry run, and leaves the same state under other names. -/
theorem Processes.shadowed (follows : engine.strategy.Follows blueprint)
    (live : engine.options.environment.dryRun = false)
    (parts : ∀ target ∈ blueprint.plan.targets, IsPart target.ratio) (holds : state.Holds blueprint)
    (numbered : world.venue.Numbered) (tends : Tends state world.venue) (shadowed : Shadowed rename state world.venue)
    {bar : Bar} {turn : Turn PaperBook}
    (processes : Processes engine blueprint PaperScript.plain.venue state bar world turn)
    (dry : environment.dryRun = true) (venue : Venue τ) (other : World τ) :
    ∃ extended, Extends rename world.venue extended turn.world.venue ∧
      Shadowed extended turn.state turn.world.venue ∧
      (engine.under environment).processBar venue (state.renamed rename) bar other =
        ⟨turn.result, turn.state.renamed extended, other⟩ := by
  have sameRejection : (engine.under environment).rejection? (state.renamed rename) bar = engine.rejection? state bar :=
    rfl
  have sameHours : (engine.under environment).looksAt bar = engine.looksAt bar := rfl
  unfold processBar
  rw [sameRejection]
  cases processes with
  | rejected error why =>
    rw [why]
    exact ⟨rename, .refl _ _, shadowed, rfl⟩
  | skipped accepted closed =>
    rw [accepted, sameHours, closed]
    exact ⟨rename, .refl _ _, ⟨shadowed.known, shadowed.working, shadowed.apart⟩, rfl⟩
  | looked ended accepted opens advances =>
    rw [accepted, sameHours, opens]
    obtain ⟨extended, grown, kept, dryAdvances⟩ := advances.shadowed live parts (observed_holds holds bar) numbered
      (tends.observed engine bar) (shadowed.observed engine bar) dry venue other
    have dryFollows : (engine.under environment).strategy.Follows blueprint := follows
    have sameStep := dryAdvances.advance_eq dryFollows ((observed_holds holds bar).renamed rename)
    rw [renamed_observed engine environment] at sameStep
    have sameWorld : (logError bar.timestamp ended).world = ended.world := by
      obtain ⟨log, same⟩ := logError_eq bar.timestamp ended
      rw [same]
    refine ⟨extended, sameWorld.symm ▸ grown, kept.logError bar.timestamp, ?_⟩
    exact (congrArg (logError bar.timestamp) sameStep).trans (logError_renamed bar.timestamp ended other)

/-! ### The same run -/

theorem ofStrategy_under {strategy : Strategy} {registry : Registry} {options : EngineOptions}
    (bound : ofStrategy strategy registry options = .ok engine) (environment : Environment) :
    ofStrategy strategy registry { options with environment := environment } = .ok (engine.under environment) := by
  unfold ofStrategy at bound ⊢
  split at bound
  · next pipeline planned =>
    rw [← Except.ok.inj bound]
    rfl
  · contradiction

/-- A live run at the plain paper venue, whose book is empty at first. -/
def plainRun (engine : Engine) (clock : Nat) (bars : List Bar) : RunState PaperBook :=
  engine.after PaperScript.plain.venue ⟨clock, .empty⟩ bars

theorem plainRun_snoc (engine : Engine) (clock : Nat) (bars : List Bar) (bar : Bar) :
    engine.plainRun clock (bars ++ [bar]) = engine.runStep PaperScript.plain.venue (engine.plainRun clock bars) bar :=
  after_snoc bars bar

theorem startState_shadowed (engine : Engine) (rename : String → String) (book : PaperBook) :
    Shadowed rename engine.startState book where
  known _ member := absurd member List.not_mem_nil
  working _ member := absurd member List.not_mem_nil
  apart := List.nodup_nil

/-- A dry run has gone along with a live one under some names, and these were the names since the first bar. -/
structure RunsAlong (engine : Engine) (environment : Environment) (venue : Venue τ) (other : World τ) (clock : Nat)
    (bars : List Bar) (rename : String → String) : Prop where
  shadowed : Shadowed rename (engine.plainRun clock bars).state (engine.plainRun clock bars).world.venue
  world : ((engine.under environment).after venue other bars).world = other
  known : ∀ front, front <+: bars → ∀ id ∈ (engine.plainRun clock front).state.ids,
    id ∈ (engine.plainRun clock bars).world.venue.orders.map Order.id
  states : ∀ front, front <+: bars →
    ((engine.under environment).after venue other front).state = (engine.plainRun clock front).state.renamed rename

section
variable (follows : engine.strategy.Follows blueprint) (live : engine.options.environment.dryRun = false)
  (parts : ∀ target ∈ blueprint.plan.targets, IsPart target.ratio) (dry : environment.dryRun = true) (venue : Venue τ)
  (other : World τ) (clock : Nat)
include follows live parts dry

/-- One more bar, with the names that it needs. -/
theorem RunsAlong.turn {bars : List Bar} (along : RunsAlong engine environment venue other clock bars rename)
    (bar : Bar) :
    ∃ extended,
      Extends rename (engine.plainRun clock bars).world.venue extended
        (engine.plainRun clock (bars ++ [bar])).world.venue ∧
      Shadowed extended (engine.plainRun clock (bars ++ [bar])).state
        (engine.plainRun clock (bars ++ [bar])).world.venue ∧
      (engine.under environment).turnAfter venue other bars bar =
        ⟨(engine.turnAfter PaperScript.plain.venue ⟨clock, .empty⟩ bars bar).result,
          (engine.plainRun clock (bars ++ [bar])).state.renamed extended, other⟩ := by
  have holds : (engine.plainRun clock bars).state.Holds blueprint := after_holds follows _ _ bars
  have empty : PaperBook.empty.Numbered := rfl
  have numbered : (engine.plainRun clock bars).world.venue.Numbered :=
    after_keeps (PaperScript.numbered_keeps live) empty bars
  have tends : Tends (engine.plainRun clock bars).state (engine.plainRun clock bars).world.venue :=
    after_tends follows live (PaperScript.plain_cancels engine.options.environment) clock bars
  have processes : Processes engine blueprint PaperScript.plain.venue (engine.plainRun clock bars).state bar
      (engine.plainRun clock bars).world _ := processBar_processes follows holds bar
  rw [turnAfter, along.states bars List.prefix_rfl, along.world, plainRun_snoc]
  exact processes.shadowed follows live parts holds numbered tends along.shadowed dry venue other

/-- The names are extended by every bar. What was known keeps its name, so the states before the bar stay the same. -/
theorem runs_along (bars : List Bar) : ∃ rename, RunsAlong engine environment venue other clock bars rename := by
  induction bars using List.reverseRecOn with
  | nil =>
    have start := startState_shadowed engine id .empty
    refine ⟨id, start, rfl, ?_, ?_⟩
    · intro front isPrefix id member
      obtain rfl := List.prefix_nil.mp isPrefix
      exact start.known id member
    · intro front isPrefix
      obtain rfl := List.prefix_nil.mp isPrefix
      rfl
  | append_singleton bars bar inductionHypothesis =>
    obtain ⟨rename, along⟩ := inductionHypothesis
    obtain ⟨extended, grown, shadowed, turned⟩ := along.turn follows live parts dry venue other clock bar
    have stepped : (engine.under environment).after venue other (bars ++ [bar]) =
        (engine.under environment).runStep venue ((engine.under environment).after venue other bars) bar :=
      after_snoc bars bar
    refine ⟨extended, shadowed, ?world, ?known, ?states⟩
    case world =>
      rw [stepped]
      exact congrArg Turn.world turned
    case known =>
      intro front isPrefix id member
      rcases List.prefix_concat_iff.mp isPrefix with rfl | earlier
      · exact shadowed.known id member
      · exact grown.ids id (along.known front earlier id member)
    case states =>
      intro front isPrefix
      rcases List.prefix_concat_iff.mp isPrefix with rfl | earlier
      · rw [stepped]
        exact congrArg Turn.state turned
      · rw [along.states front earlier]
        exact EngineState.renamed_congr fun id member => (grown.names id (along.known front earlier id member)).symm

end

/-- A dry run refines a live one. Every bar has the same outcome or error, and leaves the same state but for the names
of orders, among the orders as well as in the log. -/
structure Refines (dry live : Engine) (venue : Venue τ) (other : World τ) (clock : Nat) (bars : List Bar) : Prop where
  result : ∀ bar, (dry.turnAfter venue other bars bar).result =
    (live.turnAfter PaperScript.plain.venue ⟨clock, .empty⟩ bars bar).result
  /-- One renaming serves for all states since the first bar. -/
  states : ∃ rename, ∀ front, front <+: bars →
    (dry.after venue other front).state = (live.plainRun clock front).state.renamed rename
  /-- The runtime variables have been the same at all times. -/
  bindings : ∀ front, front <+: bars →
    (dry.after venue other front).state.bindings = (live.plainRun clock front).state.bindings
  /-- No two orders of a strategy share a name, neither live nor dry. -/
  distinct : ((live.plainRun clock bars).state.orders.map Order.id).Nodup ∧
    ((dry.after venue other bars).state.orders.map Order.id).Nodup
  /-- The dry run leaves its venue alone. -/
  untouched : (dry.after venue other bars).world = other

theorem under_refines (follows : engine.strategy.Follows blueprint) (live : engine.options.environment.dryRun = false)
    (parts : ∀ target ∈ blueprint.plan.targets, IsPart target.ratio) (dry : environment.dryRun = true)
    (venue : Venue τ) (other : World τ) (clock : Nat) (bars : List Bar) :
    (engine.under environment).Refines engine venue other clock bars := by
  obtain ⟨rename, along⟩ := runs_along follows live parts dry venue other clock bars
  have names : ((engine.under environment).after venue other bars).state.orders.map Order.id =
      ((engine.plainRun clock bars).state.orders.map Order.id).map rename := by
    rw [along.states bars List.prefix_rfl]
    exact Order.renamed_ids rename _
  refine {
    result := ?result
    states := ⟨rename, along.states⟩
    bindings := fun front isPrefix => by rw [along.states front isPrefix]; rfl
    distinct := ⟨along.shadowed.apart.of_map, names ▸ along.shadowed.apart⟩
    untouched := along.world }
  intro bar
  obtain ⟨extended, _, _, turned⟩ := along.turn follows live parts dry venue other clock bar
  exact congrArg Turn.result turned

end Engine

/-- Over every sequence of bars, a dry run of a compiled strategy refines a live run at the plain paper venue, whose
book is empty at first. The two engines differ in their environments only, and the dry one may have any venue. -/
theorem dry_run_refines_live {registry : Registry} {json : Json} {strategy : Strategy} {options : EngineOptions}
    {environment : Environment} {live dry : Engine} (compiled : Strategy.ofDocument registry json = .ok strategy)
    (boundLive : Engine.ofStrategy strategy registry options = .ok live)
    (boundDry : Engine.ofStrategy strategy registry { options with environment := environment } = .ok dry)
    (isLive : options.environment.dryRun = false) (isDry : environment.dryRun = true) {τ : Type} (venue : Venue τ)
    (other : World τ) (clock : Nat) (bars : List Bar) : dry.Refines live venue other clock bars := by
  obtain ⟨blueprint, follows, first, _⟩ := Strategy.ofDocument_first compiled
  obtain ⟨sameStrategy, sameOptions⟩ := Engine.ofStrategy_keeps boundLive
  obtain rfl := Except.ok.inj ((Engine.ofStrategy_under boundLive environment).symm.trans boundDry)
  have parts := Strategy.ofDocument_parts compiled blueprint.plan (List.mem_of_head? first)
  exact Engine.under_refines (sameStrategy.symm ▸ follows) (sameOptions.symm ▸ isLive) parts isDry venue other clock
    bars

/-- Bars on which the breakout strategy goes through its cycle and submits its plan again. -/
def returningBars : List Bar :=
  turningBars ++ [⟨"ACME", ⟨360, 0⟩, 100, 101, 99, 101, 1000⟩, ⟨"ACME", ⟨420, 0⟩, 101, 103, 100, 102, 1000⟩]

set_option maxRecDepth 100000 in
/-- The second submission has new ids at the venue, and in the dry run those of the first one once more. -/
theorem returning_breakout_refines :
    ∃ strategy live dry, Strategy.ofDocument .empty breakoutDocument = .ok strategy ∧
      Engine.ofStrategy strategy .empty liveOptions = .ok live ∧
      Engine.ofStrategy strategy .empty { liveOptions with environment := .dry } = .ok dry ∧
      dry.Refines live PaperScript.plain.venue ⟨0, .empty⟩ 0 returningBars ∧
      (live.plainRun 0 returningBars).state.orders.map Order.id = ["paper-4", "paper-5", "paper-6"] ∧
      (dry.after PaperScript.plain.venue ⟨0, .empty⟩ returningBars).state.orders.map Order.id =
        ["dry-primary-1", "dry-primary-2", "dry-primary-3"] := by
  have passed : Engine.passes .empty breakoutDocument liveOptions (fun engine => decide <|
      (engine.plainRun 0 returningBars).state.orders.map Order.id = ["paper-4", "paper-5", "paper-6"] ∧
        ((engine.under .dry).after PaperScript.plain.venue ⟨0, .empty⟩ returningBars).state.orders.map Order.id =
          ["dry-primary-1", "dry-primary-2", "dry-primary-3"]) = true := by decide +kernel
  obtain ⟨strategy, live, compiled, boundLive, names⟩ := Engine.passes_binds passed
  have boundDry := Engine.ofStrategy_under boundLive .dry
  exact ⟨strategy, live, live.under .dry, compiled, boundLive, boundDry,
    dry_run_refines_live compiled boundLive boundDry rfl rfl PaperScript.plain.venue ⟨0, .empty⟩ 0 returningBars,
    of_decide_eq_true names⟩

end TradingStrategy

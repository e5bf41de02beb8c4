import TradingStrategy.Proofs.Run.Reach
import TradingStrategy.Proofs.Venue.Paper
import TradingStrategy.Venue.Cached

/-!
A cache in front of a venue that answers at once.

Owns:
- calls that run to their end, and that a time-out does not touch those that end in time;
- `Venue.Cacheable`: a venue that answers at once and whose placements change what it shows for their own symbol only;
- instructions to a venue, one after another, with time between them;
- `cached_paper_transparent`: behind a cache the paper venue gives the same replies and keeps the same book;
- that an engine does not notice such a cache.

Orders that are filled behind the back of the cache are not covered, and neither are calls at the same time.
-/

namespace TradingStrategy

variable {σ τ α β : Type}

/-! ### Calls that run to their end -/

namespace Call

theorem finish_clock_le (call : Call σ α) (world : World σ) : world.clock ≤ (call.finish world).2.clock := by
  induction call generalizing world with
  | done answer => exact Nat.le_refl _
  | pause milliseconds rest inductionHypothesis =>
    exact Nat.le_trans (Nat.le_add_right _ _) (inductionHypothesis { world with clock := world.clock + milliseconds })
  | step update next inductionHypothesis =>
    exact inductionHypothesis world.clock world.venue { world with venue := update world.clock world.venue }

/-- A call that ends in time is not cut off. -/
theorem within_eq_finish (call : Call σ α) (world : World σ) {deadline : Nat}
    (inTime : (call.finish world).2.clock ≤ deadline) :
    call.within deadline world = (some (call.finish world).1, (call.finish world).2) := by
  induction call generalizing world with
  | done answer => rfl
  | pause milliseconds rest inductionHypothesis =>
    have arrives := Nat.le_trans (rest.finish_clock_le { world with clock := world.clock + milliseconds }) inTime
    rw [within, if_pos arrives]
    exact inductionHypothesis { world with clock := world.clock + milliseconds } inTime
  | step update next inductionHypothesis =>
    exact inductionHypothesis world.clock world.venue { world with venue := update world.clock world.venue } inTime

theorem finish_andThen (call : Call σ α) (next : α → Call σ β) (world : World σ) :
    (call.andThen next).finish world =
      match call.finish world with
      | (.ok value, after) => (next value).finish after
      | (.error error, after) => (.error error, after) := by
  induction call generalizing world with
  | done answer => cases answer <;> rfl
  | pause milliseconds rest inductionHypothesis =>
    exact inductionHypothesis { world with clock := world.clock + milliseconds }
  | step update following inductionHypothesis =>
    exact inductionHypothesis world.clock world.venue { world with venue := update world.clock world.venue }

/-- A call behind a cache does what it does without one, and leaves what is remembered. -/
theorem finish_behind (call : Call σ α) (world : World (Cached σ)) :
    (Cached.behind call).finish world =
      let plain := call.finish ⟨world.clock, world.venue.inner⟩
      (plain.1, ⟨plain.2.clock, plain.2.venue, world.venue.entries⟩) := by
  induction call generalizing world with
  | done answer => rfl
  | pause milliseconds rest inductionHypothesis =>
    exact inductionHypothesis { world with clock := world.clock + milliseconds }
  | step update next inductionHypothesis =>
    exact inductionHypothesis world.clock world.venue.inner
      { world with venue := { world.venue with inner := update world.clock world.venue.inner } }

end Call

/-- A request that takes no time ends as its call does, whatever the time-out. -/
theorem Environment.request_eq_finish (environment : Environment) (operation : Operation) (call : Call σ α)
    (world : World σ) (prompt : (call.finish world).2.clock = world.clock) :
    environment.request operation call world = call.finish world := by
  have inTime : (call.finish world).2.clock ≤ world.clock + environment.timeout := by omega
  rw [request, call.within_eq_finish world inTime]

/-! ### What a cache may be put in front of -/

/-- A venue that answers at once, and whose placements change what it shows for their own symbol only. -/
structure Venue.Cacheable (venue : Venue σ) (shown : σ → String → List Order) : Prop where
  asked : ∀ symbol world, (venue.openOrders symbol).finish world = (.ok (shown world.venue symbol), world)
  placedAtOnce : ∀ leg world, ((venue.place leg).finish world).2.clock = world.clock
  placedApart : ∀ leg world symbol, symbol ≠ leg.symbol →
    shown ((venue.place leg).finish world).2.venue symbol = shown world.venue symbol
  cancelledAtOnce : ∀ id world, ((venue.cancel id).finish world).2.clock = world.clock

/-- A world behind a cache and the world without one: what is remembered is what the venue would show. -/
structure Cached.Faithful (shown : σ → String → List Order) (world : World (Cached σ)) (plain : World σ) : Prop where
  clock : world.clock = plain.clock
  inner : world.venue.inner = plain.venue
  remembered : ∀ entry ∈ world.venue.entries, entry.orders = shown plain.venue entry.symbol

namespace Venue.Cacheable

open Cached (Faithful)

variable {venue : Venue σ} {shown : σ → String → List Order} {ttl : Nat} {world : World (Cached σ)} {plain : World σ}
  (cacheable : venue.Cacheable shown)
include cacheable

/-- A placement forgets its symbol, and nothing else that is remembered changes. -/
theorem place_matches (leg : OrderLeg) (now : Faithful shown world plain) :
    Matches (Faithful shown) (((venue.cached ttl).place leg).finish world) ((venue.place leg).finish plain) := by
  have sameWorld : World.mk world.clock world.venue.inner = plain := by rw [now.clock, now.inner]
  have placed : ((venue.cached ttl).place leg).finish world =
      (((venue.place leg).finish plain).1, ⟨((venue.place leg).finish plain).2.clock,
        ((venue.place leg).finish plain).2.venue, (world.venue.forget leg.symbol).entries⟩) := by
    rw [← sameWorld]
    exact Call.finish_behind _ _
  rw [placed]
  refine ⟨rfl, rfl, rfl, ?_⟩
  intro entry member
  obtain ⟨before, other⟩ := List.mem_filter.mp member
  rw [cacheable.placedApart leg plain entry.symbol (by simpa using other)]
  exact now.remembered entry before

omit cacheable in
/-- A cancellation forgets everything. -/
theorem cancel_matches (id : String) (now : Faithful shown world plain) :
    Matches (Faithful shown) (((venue.cached ttl).cancel id).finish world) ((venue.cancel id).finish plain) := by
  have sameWorld : World.mk world.clock world.venue.inner = plain := by rw [now.clock, now.inner]
  have cancelled : ((venue.cached ttl).cancel id).finish world =
      (((venue.cancel id).finish plain).1, ⟨((venue.cancel id).finish plain).2.clock,
        ((venue.cancel id).finish plain).2.venue, []⟩) := by
    rw [← sameWorld]
    exact Call.finish_behind _ _
  rw [cancelled]
  exact ⟨rfl, rfl, rfl, by simp⟩

/-- A query is answered with what is remembered, or with what the venue shows, which is then remembered. -/
theorem openOrders_matches (symbol : String) (now : Faithful shown world plain) :
    Matches (Faithful shown) (((venue.cached ttl).openOrders symbol).finish world)
      ((venue.openOrders symbol).finish plain) := by
  rw [cacheable.asked]
  have sameWorld : World.mk world.clock world.venue.inner = plain := by rw [now.clock, now.inner]
  simp only [cached, Call.finish]
  match hit : world.venue.remembered? ttl world.clock symbol with
  | some orders =>
    refine ⟨congrArg Except.ok ?_, now⟩
    unfold Cached.remembered? at hit
    split at hit
    · next entry found =>
      split at hit
      · have named : entry.symbol = symbol := by simpa using List.find?_some found
        rw [← Option.some.inj hit, ← named]
        exact now.remembered entry (List.mem_of_find?_eq_some found)
      · contradiction
    · contradiction
  | none =>
    dsimp only
    rw [Call.finish_andThen, Call.finish_behind, sameWorld, cacheable.asked]
    refine ⟨rfl, rfl, rfl, ?_⟩
    intro entry member
    rcases List.mem_cons.mp member with rfl | member
    · rfl
    · exact now.remembered entry (List.mem_filter.mp member).1

omit cacheable in
/-- Calls that match and take no time also match as requests. -/
theorem request_matches (environment : Environment) (operation : Operation) {call : Call (Cached σ) α}
    {plainCall : Call σ α} (now : Faithful shown world plain)
    (matched : Matches (Faithful shown) (call.finish world) (plainCall.finish plain))
    (prompt : (plainCall.finish plain).2.clock = plain.clock) :
    Matches (Faithful shown) (environment.request operation call world)
      (environment.request operation plainCall plain) := by
  have cachedPrompt : (call.finish world).2.clock = world.clock := by rw [matched.2.clock, prompt, now.clock]
  rw [environment.request_eq_finish operation call world cachedPrompt,
    environment.request_eq_finish operation plainCall plain prompt]
  exact matched

theorem similar (environment : Environment) (ttl : Nat) :
    Venue.Similar environment (venue.cached ttl) venue (Faithful shown) where
  place leg _ plain now :=
    request_matches environment .place now (cacheable.place_matches leg now) (cacheable.placedAtOnce leg plain)
  cancel id _ plain now :=
    request_matches environment .cancel now (cancel_matches id now) (cacheable.cancelledAtOnce id plain)
  openOrders symbol _ plain now := by
    have prompt : ((venue.openOrders symbol).finish plain).2.clock = plain.clock := by rw [cacheable.asked]
    unfold queryOpen
    split
    · exact ⟨rfl, now⟩
    · exact request_matches environment .openOrders now (cacheable.openOrders_matches symbol now) prompt

end Venue.Cacheable

/-! ### Instructions -/

/-- What a client can tell a venue to do: a single call, one of the operations that are built on them, or to let time
pass. -/
inductive Instruction where
  | place (leg : OrderLeg)
  | cancel (id : String)
  | openOrders (symbol : String)
  | submit (environment : Environment) (plan : ResolvedPlan)
  | rollBack (environment : Environment) (newestFirst : List Order) (cause : VenueError)
  | submitMarket (environment : Environment) (symbol : String) (quantity : Float) (side : Side)
  | cancelEntries (environment : Environment) (symbol : String) (orders : List Order)
  | queryOpen (environment : Environment) (symbol : String)
  | wait (milliseconds : Nat)

/-- What a venue says to an instruction. -/
inductive Reply where
  | order (answer : Except VenueError Order)
  | done (answer : Except VenueError Unit)
  | orders (answer : Except VenueError (List Order))
  | failure (error : VenueError)
  | report (report : CancelReport)
  | waited
deriving DecidableEq

namespace Venue

/-- Follows one instruction. Single calls have no time-out. A roll-back in a dry run counts every order as cancelled. -/
def follow (venue : Venue σ) (instruction : Instruction) (world : World σ) : Reply × World σ :=
  match instruction with
  | .place leg => ((venue.place leg).finish world).map Reply.order fun after => after
  | .cancel id => ((venue.cancel id).finish world).map Reply.done fun after => after
  | .openOrders symbol => ((venue.openOrders symbol).finish world).map Reply.orders fun after => after
  | .submit environment plan => (venue.submit environment plan world).map Reply.orders fun after => after
  | .rollBack environment newestFirst cause =>
      if environment.dryRun ∧ newestFirst ≠ [] then
        (.failure (.rolledBack cause (newestFirst.map Order.id) []), world)
      else (venue.rollBack environment newestFirst cause world).map Reply.failure fun after => after
  | .submitMarket environment symbol quantity side =>
      (venue.submitMarket environment symbol quantity side world).map Reply.order fun after => after
  | .cancelEntries environment symbol orders =>
      (venue.cancelEntries environment symbol orders world).map Reply.report fun after => after
  | .queryOpen environment symbol => (venue.queryOpen environment symbol world).map Reply.orders fun after => after
  | .wait milliseconds => (.waited, { world with clock := world.clock + milliseconds })

/-- Follows instructions one after another. -/
def followAll (venue : Venue σ) : List Instruction → World σ → List Reply × World σ
  | [], world => ([], world)
  | instruction :: rest, world =>
      let (reply, world) := venue.follow instruction world
      let (replies, world) := venue.followAll rest world
      (reply :: replies, world)

end Venue

theorem Matches.map {related : World σ → World τ → Prop} {one : α × World σ} {other : α × World τ} (reply : α → Reply)
    (matched : Matches related one other) :
    Matches related (one.map reply fun after => after) (other.map reply fun after => after) :=
  ⟨congrArg reply matched.1, matched.2⟩

theorem Venue.Similar.submitMarket {environment : Environment} {venue : Venue σ} {other : Venue τ}
    {related : World σ → World τ → Prop} {world : World σ} {world' : World τ}
    (similar : Venue.Similar environment venue other related) (symbol : String) (quantity : Float) (side : Side)
    (now : related world world') :
    Matches related (venue.submitMarket environment symbol quantity side world)
      (other.submitMarket environment symbol quantity side world') := by
  simp only [Venue.submitMarket]
  split
  · exact ⟨rfl, now⟩
  · split
    · exact ⟨rfl, now⟩
    · exact similar.place _ world world' now

namespace Venue.Cacheable

open Cached (Faithful)

variable {venue : Venue σ} {shown : σ → String → List Order} (cacheable : venue.Cacheable shown) (ttl : Nat)
  {world : World (Cached σ)} {plain : World σ}
include cacheable

theorem follow_matches (instruction : Instruction) (now : Faithful shown world plain) :
    Matches (Faithful shown) ((venue.cached ttl).follow instruction world) (venue.follow instruction plain) := by
  cases instruction with
  | place leg => exact (cacheable.place_matches leg now).map .order
  | cancel id => exact (cancel_matches id now).map .done
  | openOrders symbol => exact (cacheable.openOrders_matches symbol now).map .orders
  | submit environment plan => exact ((cacheable.similar environment ttl).submit plan now).map .orders
  | rollBack environment newestFirst cause =>
    simp only [follow]
    split
    · exact ⟨rfl, now⟩
    · exact ((cacheable.similar environment ttl).rollBack newestFirst cause now).map .failure
  | submitMarket environment symbol quantity side =>
    exact ((cacheable.similar environment ttl).submitMarket symbol quantity side now).map .order
  | cancelEntries environment symbol orders =>
    exact ((cacheable.similar environment ttl).cancelEntries symbol orders now).map .report
  | queryOpen environment symbol =>
    exact ((cacheable.similar environment ttl).openOrders symbol world plain now).map .orders
  | wait milliseconds => exact ⟨rfl, congrArg (· + milliseconds) now.clock, now.inner, now.remembered⟩

theorem followAll_matches (instructions : List Instruction) (now : Faithful shown world plain) :
    Matches (Faithful shown) ((venue.cached ttl).followAll instructions world) (venue.followAll instructions plain) := by
  induction instructions generalizing world plain with
  | nil => exact ⟨rfl, now⟩
  | cons instruction rest inductionHypothesis =>
    obtain ⟨sameReply, between⟩ := cacheable.follow_matches ttl instruction now
    obtain ⟨sameReplies, afterwards⟩ := inductionHypothesis between
    simp only [followAll]
    rw [sameReply, sameReplies]
    exact ⟨rfl, afterwards⟩

end Venue.Cacheable

/-! ### The paper venue -/

/-- No request of the script takes time. -/
structure PaperScript.IsPrompt (script : PaperScript) : Prop where
  latency : script.latency = 0
  placements : ∀ placement, script.placementPause placement = 0
  cancels : script.cancelLatency = 0

theorem PaperScript.IsPrompt.cacheable {script : PaperScript} (prompt : script.IsPrompt) :
    script.venue.Cacheable PaperBook.openOrders where
  asked symbol world := by
    simp only [PaperScript.venue, PaperScript.openOrders, Call.finish, prompt.latency, Nat.add_zero]
  placedAtOnce leg world := by
    simp only [PaperScript.venue, PaperScript.place, Call.finish, prompt.latency, prompt.placements, Nat.add_zero]
  placedApart leg world symbol other := by
    simp only [PaperScript.venue, PaperScript.place, Call.finish]
    unfold PaperScript.afterPlacement PaperScript.accept
    cases script.rejection? (world.venue.placements + 1) leg with
    | some reason => rfl
    | none =>
      have notShown : (leg.symbol == symbol) = false := by simpa using other.symm
      simp [PaperBook.openOrders, PaperBook.add, PaperBook.count, Order.ofLeg, Order.symbol, notShown]
  cancelledAtOnce id world := by
    simp only [PaperScript.venue, PaperScript.cancel, Call.finish, prompt.latency, prompt.cancels, Nat.add_zero]

/-- Whatever instructions are given to it one after another, and with any time between them, the paper venue behind a
cache gives the same replies and keeps the same book as without one, if its requests take no time and orders change
only through instructions. -/
theorem cached_paper_transparent (script : PaperScript) (prompt : script.IsPrompt) (ttl clock : Nat) (book : PaperBook)
    (instructions : List Instruction) :
    ((script.venue.cached ttl).followAll instructions ⟨clock, .ofInner book⟩).1 =
        (script.venue.followAll instructions ⟨clock, book⟩).1 ∧
      ((script.venue.cached ttl).followAll instructions ⟨clock, .ofInner book⟩).2.venue.inner =
        (script.venue.followAll instructions ⟨clock, book⟩).2.venue := by
  have start : Cached.Faithful PaperBook.openOrders ⟨clock, .ofInner book⟩ ⟨clock, book⟩ :=
    ⟨rfl, rfl, by simp [Cached.ofInner]⟩
  obtain ⟨sameReplies, afterwards⟩ := prompt.cacheable.followAll_matches ttl instructions start
  exact ⟨sameReplies, afterwards.inner⟩

/-- An engine passes through the same states, whether a cache stands in front of such a venue or not. -/
theorem Engine.after_cached (engine : Engine) {script : PaperScript} (prompt : script.IsPrompt) (ttl clock : Nat)
    (book : PaperBook) (bars : List Bar) :
    (engine.after (script.venue.cached ttl) ⟨clock, .ofInner book⟩ bars).state =
        (engine.after script.venue ⟨clock, book⟩ bars).state ∧
      (engine.after (script.venue.cached ttl) ⟨clock, .ofInner book⟩ bars).world.venue.inner =
        (engine.after script.venue ⟨clock, book⟩ bars).world.venue := by
  have start : Cached.Faithful PaperBook.openOrders ⟨clock, .ofInner book⟩ ⟨clock, book⟩ :=
    ⟨rfl, rfl, by simp [Cached.ofInner]⟩
  obtain ⟨sameState, afterwards⟩ :=
    engine.after_similar (prompt.cacheable.similar engine.options.environment ttl) start bars
  exact ⟨sameState, afterwards.inner⟩

/-- The second placement is rejected, and no cancellation succeeds. -/
def reluctantScript : PaperScript :=
  { PaperScript.plain with rejectedPlacements := [2], failingCancels := true }

/-- Two queries around each change, the second of them within the time for which the first one is remembered. -/
def interleavedQueries : List Instruction :=
  let live : Environment := ⟨false, 1000⟩
  [.submitMarket live "ACME" 1.0 .buy, .queryOpen live "ACME", .wait 500, .queryOpen live "ACME",
    .submitMarket live "ACME" 2.0 .sell, .queryOpen live "ACME", .cancel "paper-1", .openOrders "ACME",
    .place (Venue.marketLeg "ACME" 3.0 .buy), .wait 2500, .openOrders "ACME"]

/-- The cache answers the second query itself, and still nothing differs. -/
theorem interleaved_queries_transparent :
    reluctantScript.IsPrompt ∧
      ((reluctantScript.venue.cached 2000).followAll interleavedQueries ⟨0, .ofInner .empty⟩).1 =
          (reluctantScript.venue.followAll interleavedQueries ⟨0, .empty⟩).1 ∧
        ((reluctantScript.venue.cached 2000).followAll interleavedQueries ⟨0, .ofInner .empty⟩).2.venue.inner =
          (reluctantScript.venue.followAll interleavedQueries ⟨0, .empty⟩).2.venue := by
  have prompt : reluctantScript.IsPrompt := ⟨rfl, fun _ => rfl, rfl⟩
  exact ⟨prompt, cached_paper_transparent reluctantScript prompt 2000 0 .empty interleavedQueries⟩

end TradingStrategy

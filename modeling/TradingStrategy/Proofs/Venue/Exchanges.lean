import TradingStrategy.Proofs.Venue.Simulation

/-!
Exchanges with venues.

Owns:
- a venue that traces what an engine is told in time, and every cancellation that it asks for;
- that a trace changes nothing: `Venue.traced_similar`;
- the traces of submissions, roll-backs, cancellations and queries.

An answer that comes behind its time-out is not traced, because the engine has not got it. A cancellation is traced when
it is asked for, whatever comes of it.
-/

namespace TradingStrategy

variable {σ α β : Type}

/-- What an engine and its venue tell each other. -/
inductive Exchange where
  /-- A placement was answered with an order. -/
  | accepted (order : Order)
  /-- A cancellation is asked for. -/
  | cancelling (id : String)
  /-- A query was answered with the open orders for a symbol. -/
  | shown (symbol : String) (orders : List Order)
deriving Repr

def Exchange.cancelled? : Exchange → Option String
  | cancelling id => some id
  | accepted _ | shown .. => none

/-- The state of a venue with the trace of its exchanges, oldest first. -/
structure Traced (σ : Type) where
  inner : σ
  trace : List Exchange

namespace Traced

def note (exchange : Exchange) (traced : Traced σ) : Traced σ :=
  { traced with trace := traced.trace ++ [exchange] }

def replace (inner : σ) (traced : Traced σ) : Traced σ :=
  { traced with inner := inner }

/-- A request that is traced when it is made. -/
def asked (exchange : Exchange) (call : Call σ α) : Call (Traced σ) α :=
  .step (fun _ traced => traced.note exchange) fun _ _ => call.onPart inner replace

/-- A request that is traced when it is answered. -/
def answered (tell : α → Exchange) (call : Call σ α) : Call (Traced σ) α :=
  (call.onPart inner replace).andThen fun value =>
    .step (fun _ traced => traced.note (tell value)) fun _ _ => .done (.ok value)

end Traced

/-- A venue that traces its exchanges. -/
def Venue.traced (venue : Venue σ) : Venue (Traced σ) where
  name := venue.name
  place leg := Traced.answered .accepted (venue.place leg)
  cancel id := Traced.asked (.cancelling id) (venue.cancel id)
  openOrders symbol := Traced.answered (.shown symbol) (venue.openOrders symbol)

namespace World

/-- The world of a venue with an empty trace. -/
def traced (world : World σ) : World (Traced σ) :=
  ⟨world.clock, world.venue, []⟩

/-- The world without its trace. -/
def untraced (world : World (Traced σ)) : World σ :=
  ⟨world.clock, world.venue.inner⟩

def trace (world : World (Traced σ)) : List Exchange :=
  world.venue.trace

end World

/-- What an answer adds to a trace. -/
def told (tell : α → Exchange) : Except VenueError α → List Exchange
  | .ok value => [tell value]
  | .error _ => []

/-! ### A trace changes nothing -/

theorem Call.within_andThen (call : Call σ α) (next : α → Call σ β) (deadline : Nat) (world : World σ) :
    (call.andThen next).within deadline world =
      match call.within deadline world with
      | (some (.ok value), after) => (next value).within deadline after
      | (some (.error error), after) => (some (.error error), after)
      | (none, after) => (none, after) := by
  induction call generalizing world with
  | done answer => cases answer <;> rfl
  | pause milliseconds rest inductionHypothesis =>
    simp only [andThen, within]
    split
    · exact inductionHypothesis _
    · rfl
  | step update following inductionHypothesis => exact inductionHypothesis _ _ _

theorem Call.within_replace (call : Call σ α) (deadline : Nat) (world : World (Traced σ)) :
    (call.onPart Traced.inner Traced.replace).within deadline world =
      let plain := call.within deadline world.untraced
      (plain.1, ⟨plain.2.clock, plain.2.venue, world.trace⟩) := by
  induction call generalizing world with
  | done answer => rfl
  | pause milliseconds rest inductionHypothesis =>
    by_cases inTime : world.clock + milliseconds ≤ deadline
    · simp only [onPart, within, World.untraced, inTime, if_true]
      exact inductionHypothesis ⟨world.clock + milliseconds, world.venue⟩
    · simp only [onPart, within, World.untraced, inTime, if_false]
      rfl
  | step update next inductionHypothesis => exact inductionHypothesis _ _ _

namespace Environment

variable (environment : Environment) (operation : Operation) (call : Call σ α) (world : World (Traced σ))

theorem request_asked (exchange : Exchange) :
    environment.request operation (Traced.asked exchange call) world =
      let plain := environment.request operation call world.untraced
      (plain.1, ⟨plain.2.clock, plain.2.venue, world.trace ++ [exchange]⟩) := by
  simp only [request, Traced.asked, Call.within, Call.within_replace]
  have sameWorld : World.untraced ⟨world.clock, world.venue.note exchange⟩ = world.untraced := rfl
  rw [sameWorld]
  match call.within (world.clock + environment.timeout) world.untraced with
  | (some answer, after) => rfl
  | (none, after) => rfl

theorem request_answered (tell : α → Exchange) :
    environment.request operation (Traced.answered tell call) world =
      let plain := environment.request operation call world.untraced
      (plain.1, ⟨plain.2.clock, plain.2.venue, world.trace ++ told tell plain.1⟩) := by
  have sameClock : world.untraced.clock = world.clock := rfl
  simp only [request, Traced.answered, Call.within_andThen, Call.within_replace, sameClock]
  match call.within (world.clock + environment.timeout) world.untraced with
  | (some (.ok value), after) => rfl
  | (some (.error error), after) => simp [told]
  | (none, after) => simp [told]

end Environment

/-- The answer to a submission, and what the submission leaves in a trace: all orders are accepted, none is, or those
that were accepted are cancelled again, newest first. -/
inductive Submission : Except VenueError (List Order) → List Exchange → Prop where
  | whole (orders : List Order) : Submission (.ok orders) (orders.map .accepted)
  | failed (error : VenueError) : Submission (.error error) []
  | rolledBack (accepted : List Order) (cause : VenueError) (cancelled failed : List String) :
      Submission (.error (.rolledBack cause cancelled failed))
        (accepted.map .accepted ++ accepted.reverse.map fun order => .cancelling order.id)

namespace Venue

variable (venue : Venue σ) (environment : Environment)

theorem traced_similar : Similar environment venue.traced venue fun traced plain => traced.untraced = plain where
  place leg world plain same := by
    subst same
    simp only [placeOne, traced, Environment.request_answered]
    exact ⟨rfl, rfl⟩
  cancel id world plain same := by
    subst same
    simp only [cancelOne, traced, Environment.request_asked]
    exact ⟨rfl, rfl⟩
  openOrders symbol world plain same := by
    subst same
    simp only [queryOpen, traced, Environment.request_answered]
    split
    · exact ⟨rfl, rfl⟩
    · exact ⟨rfl, rfl⟩

/-! ### Traces of requests -/

variable (world : World (Traced σ))

theorem trace_placeOne (leg : OrderLeg) :
    (venue.traced.placeOne environment leg world).2.trace =
      world.trace ++ told .accepted (venue.traced.placeOne environment leg world).1 := by
  simp only [placeOne, traced, Environment.request_answered, World.trace]

theorem trace_cancelOne (id : String) :
    (venue.traced.cancelOne environment id world).2.trace = world.trace ++ [.cancelling id] := by
  simp only [cancelOne, traced, Environment.request_asked, World.trace]

theorem trace_cancelAll (ids : List String) :
    (venue.traced.cancelAll environment ids world).2.trace = world.trace ++ ids.map .cancelling := by
  induction ids generalizing world with
  | nil => exact (List.append_nil _).symm
  | cons id rest inductionHypothesis =>
    have first := trace_cancelOne venue environment world id
    have both := inductionHypothesis (venue.traced.cancelOne environment id world).2
    rw [first, List.append_assoc] at both
    simp only [cancelAll]
    split
    · exact both
    · exact both

theorem trace_rollBack (newestFirst : List Order) (cause : VenueError) :
    ∃ added, (venue.traced.rollBack environment newestFirst cause world).2.trace = world.trace ++ added ∧
      Submission (.error (venue.traced.rollBack environment newestFirst cause world).1)
        (newestFirst.reverse.map .accepted ++ added) := by
  unfold rollBack
  cases newestFirst with
  | nil => exact ⟨[], (List.append_nil _).symm, .failed cause⟩
  | cons newest older =>
    refine ⟨_, trace_cancelAll venue environment world ((newest :: older).map Order.id), ?_⟩
    have rolledBack := Submission.rolledBack (newest :: older).reverse cause
    rw [List.reverse_reverse] at rolledBack
    rw [List.map_map]
    exact rolledBack _ _

/-- Orders that were accepted before are part of the submission. -/
theorem trace_placeAll (accepted : List Order) (legs : List OrderLeg) :
    ∃ added, (venue.traced.placeAll environment accepted legs world).2.trace = world.trace ++ added ∧
      Submission (venue.traced.placeAll environment accepted legs world).1
        (accepted.reverse.map .accepted ++ added) := by
  induction legs generalizing accepted world with
  | nil =>
    refine ⟨[], (List.append_nil _).symm, ?_⟩
    rw [List.append_nil]
    exact .whole accepted.reverse
  | cons leg rest inductionHypothesis =>
    have first := trace_placeOne venue environment world leg
    simp only [placeAll]
    generalize venue.traced.placeOne environment leg world = placed at first
    obtain ⟨answer, after⟩ := placed
    cases answer with
    | ok order =>
      obtain ⟨added, appended, submission⟩ := inductionHypothesis after (order :: accepted)
      refine ⟨.accepted order :: added, ?_, ?_⟩
      · rw [appended, first, told, List.append_assoc, List.singleton_append]
      · simpa using submission
    | error error =>
      obtain ⟨added, appended, submission⟩ := trace_rollBack venue environment after accepted error
      refine ⟨added, ?_, submission⟩
      rw [appended, first, told, List.append_nil]

variable {environment} (live : environment.dryRun = false)
include live

theorem trace_submit (plan : ResolvedPlan) :
    ∃ added, (venue.traced.submit environment plan world).2.trace = world.trace ++ added ∧
      Submission (venue.traced.submit environment plan world).1 added := by
  unfold submit
  split
  · exact ⟨[], (List.append_nil _).symm, .failed _⟩
  · rw [live, if_neg Bool.false_ne_true]
    exact trace_placeAll venue environment world [] _

theorem trace_queryOpen (symbol : String) :
    (venue.traced.queryOpen environment symbol world).2.trace =
      world.trace ++ told (.shown symbol) (venue.traced.queryOpen environment symbol world).1 := by
  simp only [queryOpen, live, Bool.false_eq_true, if_false, traced, Environment.request_answered, World.trace]

theorem trace_cancelEntries (symbol : String) (orders : List Order) :
    (venue.traced.cancelEntries environment symbol orders world).2.trace =
      world.trace ++ (openEntries symbol orders).map fun order => .cancelling order.id := by
  simp only [cancelEntries, live, Bool.false_eq_true, if_false]
  rw [trace_cancelAll, List.map_map]
  rfl

end Venue

end TradingStrategy

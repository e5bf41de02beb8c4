import TradingStrategy.Proofs.Run.Reach

/-!
Journals of venues.

Owns:
- a venue that notes every request when it is made, and every state in which a section of a request leaves it;
- that a journal changes nothing: `after_recorded`;
- what submissions and cancellations send to a venue.

A cut-off request is noted like any other, because it was made.
-/

namespace TradingStrategy

variable {σ α : Type}

/-- A request to a venue. -/
inductive Request where
  | place (leg : OrderLeg)
  | cancel (id : String)
  | openOrders (symbol : String)

/-- What a journal notes. -/
inductive Note (σ : Type) where
  | asked (request : Request)
  | reached (state : σ)

/-- The state of a venue with its journal, oldest note first. -/
structure Recorded (σ : Type) where
  inner : σ
  journal : List (Note σ)

def Request.leg? : Request → Option OrderLeg
  | place leg => some leg
  | cancel _ | openOrders _ => none

namespace Note

def leg? : Note σ → Option OrderLeg
  | asked request => request.leg?
  | reached _ => none

def state? : Note σ → Option σ
  | asked _ => none
  | reached state => some state

/-- The notes of one request, by the states that it visits. -/
def ofRequest (request : Request) (states : List σ) : List (Note σ) :=
  asked request :: states.map reached

theorem legs_ofRequest (request : Request) (states : List σ) :
    (ofRequest request states).filterMap leg? = request.leg?.toList := by
  have silent : (states.map reached).filterMap leg? = [] := by
    rw [List.filterMap_map]
    exact List.filterMap_eq_nil_iff.mpr fun _ _ => rfl
  rw [ofRequest, List.filterMap_cons, silent]
  cases request with
  | place leg => rfl
  | cancel id => rfl
  | openOrders symbol => rfl

theorem states_ofRequest (request : Request) (states : List σ) :
    (ofRequest request states).filterMap state? = states := by
  rw [ofRequest, List.filterMap_cons, List.filterMap_map]
  exact List.filterMap_some

end Note

namespace Recorded

def ofInner (inner : σ) : Recorded σ :=
  ⟨inner, []⟩

/-- Notes that a request is made. -/
def ask (request : Request) (recorded : Recorded σ) : Recorded σ :=
  { recorded with journal := recorded.journal ++ [.asked request] }

/-- Enters a state and notes it. -/
def enter (inner : σ) (recorded : Recorded σ) : Recorded σ :=
  ⟨inner, recorded.journal ++ [.reached inner]⟩

/-- A request that is noted. -/
def noted (request : Request) (call : Call σ α) : Call (Recorded σ) α :=
  .step (fun _ recorded => recorded.ask request) fun _ _ => call.onPart inner enter

end Recorded

/-- A venue that keeps a journal. -/
def Venue.recorded (venue : Venue σ) : Venue (Recorded σ) where
  name := venue.name
  place leg := Recorded.noted (.place leg) (venue.place leg)
  cancel id := Recorded.noted (.cancel id) (venue.cancel id)
  openOrders symbol := Recorded.noted (.openOrders symbol) (venue.openOrders symbol)

namespace World

/-- The world of a venue whose state keeps no journal yet. -/
def recorded (world : World σ) : World (Recorded σ) :=
  ⟨world.clock, .ofInner world.venue⟩

/-- The world without its journal. -/
def inner (world : World (Recorded σ)) : World σ :=
  ⟨world.clock, world.venue.inner⟩

/-- The legs that were sent so far, in their order. -/
def sent (world : World (Recorded σ)) : List OrderLeg :=
  world.venue.journal.filterMap Note.leg?

end World

/-! ### A journal changes nothing -/

/-- The states in which the sections of a call leave a venue up to a deadline. -/
def Call.visited (deadline : Nat) : Call σ α → World σ → List σ
  | done _, _ => []
  | pause milliseconds rest, world =>
      if world.clock + milliseconds ≤ deadline then
        rest.visited deadline { world with clock := world.clock + milliseconds }
      else []
  | step update next, world =>
      update world.clock world.venue ::
        (next world.clock world.venue).visited deadline { world with venue := update world.clock world.venue }

theorem Call.within_enter (call : Call σ α) (deadline clock : Nat) (recorded : Recorded σ) :
    (call.onPart Recorded.inner Recorded.enter).within deadline ⟨clock, recorded⟩ =
      let plain := call.within deadline ⟨clock, recorded.inner⟩
      (plain.1, ⟨plain.2.clock, plain.2.venue,
        recorded.journal ++ (call.visited deadline ⟨clock, recorded.inner⟩).map .reached⟩) := by
  induction call generalizing clock recorded with
  | done answer => simp only [onPart, within, visited, List.map_nil, List.append_nil]
  | pause milliseconds rest inductionHypothesis =>
    simp only [onPart, within, visited]
    split
    · exact inductionHypothesis _ recorded
    · simp only [List.map_nil, List.append_nil]
  | step update next inductionHypothesis =>
    simp only [onPart, within, visited, inductionHypothesis, Recorded.enter, List.map_cons, List.append_assoc,
      List.singleton_append]

/-- A noted request ends as the request itself does; its notes are the request and the states that it visits. -/
theorem Environment.request_noted (environment : Environment) (operation : Operation) (request : Request)
    (call : Call σ α) (world : World (Recorded σ)) :
    environment.request operation (Recorded.noted request call) world =
      let plain := environment.request operation call world.inner
      (plain.1, ⟨plain.2.clock, plain.2.venue, world.venue.journal ++
        Note.ofRequest request (call.visited (world.clock + environment.timeout) world.inner)⟩) := by
  simp only [Environment.request, Recorded.noted, Call.within, Call.within_enter, Recorded.ask, World.inner,
    Note.ofRequest]
  match call.within (world.clock + environment.timeout) ⟨world.clock, world.venue.inner⟩ with
  | (some answer, after) => simp
  | (none, after) => simp

namespace Venue

variable (venue : Venue σ) (environment : Environment)

theorem recorded_similar : Similar environment venue.recorded venue fun recorded plain => recorded.inner = plain where
  place leg world plain same := by
    subst same
    simp only [placeOne, recorded, Environment.request_noted]
    exact ⟨rfl, rfl⟩
  cancel id world plain same := by
    subst same
    simp only [cancelOne, recorded, Environment.request_noted]
    exact ⟨rfl, rfl⟩
  openOrders symbol world plain same := by
    subst same
    simp only [queryOpen, recorded, Environment.request_noted]
    split
    · exact ⟨rfl, rfl⟩
    · exact ⟨rfl, rfl⟩

/-! ### What is sent -/

/-- A request sends its leg, if it places one. -/
theorem sent_request (operation : Operation) (request : Request) (call : Call σ α) (world : World (Recorded σ)) :
    (environment.request operation (Recorded.noted request call) world).2.sent =
      world.sent ++ request.leg?.toList := by
  rw [Environment.request_noted]
  simp only [World.sent, List.filterMap_append, Note.legs_ofRequest]

theorem sent_placeOne (leg : OrderLeg) (world : World (Recorded σ)) :
    (venue.recorded.placeOne environment leg world).2.sent = world.sent ++ [leg] :=
  sent_request environment .place (.place leg) (venue.place leg) world

theorem sent_cancelOne (id : String) (world : World (Recorded σ)) :
    (venue.recorded.cancelOne environment id world).2.sent = world.sent :=
  (sent_request environment .cancel (.cancel id) (venue.cancel id) world).trans (List.append_nil _)

theorem sent_queryOpen (symbol : String) (world : World (Recorded σ)) :
    (venue.recorded.queryOpen environment symbol world).2.sent = world.sent := by
  unfold queryOpen
  split
  · rfl
  · have asked := sent_request environment .openOrders (.openOrders symbol) (venue.openOrders symbol) world
    exact asked.trans (List.append_nil _)

theorem sent_cancelAll (ids : List String) (world : World (Recorded σ)) :
    (venue.recorded.cancelAll environment ids world).2.sent = world.sent := by
  induction ids generalizing world with
  | nil => rfl
  | cons id rest inductionHypothesis =>
    have first := sent_cancelOne venue environment id world
    have both := (inductionHypothesis (venue.recorded.cancelOne environment id world).2).trans first
    simp only [cancelAll]
    split
    · exact both
    · exact both

theorem sent_cancelEntries (symbol : String) (orders : List Order) (world : World (Recorded σ)) :
    (venue.recorded.cancelEntries environment symbol orders world).2.sent = world.sent := by
  simp only [cancelEntries]
  split
  · rfl
  · exact sent_cancelAll venue environment _ world

theorem sent_rollBack (newestFirst : List Order) (cause : VenueError) (world : World (Recorded σ)) :
    (venue.recorded.rollBack environment newestFirst cause world).2.sent = world.sent := by
  simp only [rollBack]
  split
  · rfl
  · exact sent_cancelAll venue environment _ world

/-- Legs are sent in their order up to the first one that fails. -/
theorem sent_placeAll (accepted : List Order) (legs : List OrderLeg) (world : World (Recorded σ)) :
    ∃ sent, (venue.recorded.placeAll environment accepted legs world).2.sent = world.sent ++ sent ∧ sent <+: legs ∧
      ∀ orders, (venue.recorded.placeAll environment accepted legs world).1 = .ok orders → sent = legs := by
  induction legs generalizing accepted world with
  | nil => exact ⟨[], (List.append_nil _).symm, List.prefix_rfl, fun _ _ => rfl⟩
  | cons leg rest inductionHypothesis =>
    have first := sent_placeOne venue environment leg world
    simp only [placeAll]
    generalize venue.recorded.placeOne environment leg world = placed at first
    obtain ⟨answer, after⟩ := placed
    cases answer with
    | ok order =>
      obtain ⟨sent, added, isPrefix, whole⟩ := inductionHypothesis (order :: accepted) after
      refine ⟨leg :: sent, ?_, by simpa using isPrefix, fun orders done => by rw [whole orders done]⟩
      rw [added, first, List.append_assoc, List.singleton_append]
    | error error => exact ⟨[leg], by rw [sent_rollBack, first], by simp, fun orders done => by contradiction⟩

/-- A live submission sends a prefix of the bracket, and all of it if it succeeds. Nothing is sent for a plan with a
fault. -/
theorem sent_submit {environment : Environment} (live : environment.dryRun = false) (plan : ResolvedPlan)
    (world : World (Recorded σ)) :
    (∃ fault, plan.fault? = some fault ∧ (venue.recorded.submit environment plan world).2.sent = world.sent) ∨
    ∃ legs sent, plan.fault? = none ∧ plan.bracket = .ok legs ∧
      (venue.recorded.submit environment plan world).2.sent = world.sent ++ sent ∧ sent <+: legs ∧
      ∀ orders, (venue.recorded.submit environment plan world).1 = .ok orders → sent = legs := by
  cases faulty : plan.fault? with
  | some fault =>
    have noBracket : plan.bracket = .error fault := by simp only [ResolvedPlan.bracket, faulty]
    refine .inl ⟨fault, rfl, ?_⟩
    rw [submit, noBracket]
  | none =>
    cases bracketed : plan.bracket with
    | error fault => simp [ResolvedPlan.bracket, faulty] at bracketed
    | ok legs =>
      have placing :
          venue.recorded.submit environment plan world = venue.recorded.placeAll environment [] legs world := by
        simp only [submit, bracketed, live, Bool.false_eq_true, if_false]
      rw [placing]
      obtain ⟨sent, added, isPrefix, whole⟩ := sent_placeAll venue environment [] legs world
      exact .inr ⟨legs, sent, rfl, rfl, added, isPrefix, whole⟩

end Venue

namespace Engine

variable (engine : Engine) (venue : Venue σ)

theorem sent_ownOrders (state : EngineState) (world : World (Recorded σ)) :
    (engine.ownOrders venue.recorded state world).2.sent = world.sent := by
  have asked := Venue.sent_queryOpen venue engine.options.environment (engine.planSymbol state) world
  unfold ownOrders
  split
  · rfl
  · split
    · rfl
    · split
      · next answered => rw [answered] at asked; exact asked
      · next answered => rw [answered] at asked; exact asked

/-- A run over a recorded venue is the run over the venue itself. -/
theorem after_recorded (world : World (Recorded σ)) (bars : List Bar) :
    (engine.after venue.recorded world bars).state = (engine.after venue world.inner bars).state ∧
      (engine.after venue.recorded world bars).world.inner = (engine.after venue world.inner bars).world :=
  after_similar (Venue.recorded_similar venue engine.options.environment) rfl bars

end Engine

end TradingStrategy

import TradingStrategy.Engine.Step

/-!
Venues that an engine cannot tell apart.

Owns:
- `Venue.Similar`: two venues that answer every request alike and stay related;
- that everything which is built on requests then has the same outcomes: submissions, cancellations, queries, and whole
  bars of an engine;
- that a bar keeps what every request keeps.
-/

namespace TradingStrategy

variable {σ τ : Type}

/-- The same value, and worlds that are related. -/
def Matches {α : Type} (related : World σ → World τ → Prop) (one : α × World σ) (other : α × World τ) : Prop :=
  one.1 = other.1 ∧ related one.2 other.2

theorem Matches.parts {α : Type} {related : World σ → World τ → Prop} {one : α × World σ} {other : α × World τ}
    (matched : Matches related one other) :
    ∃ value world world', one = (value, world) ∧ other = (value, world') ∧ related world world' :=
  ⟨one.1, one.2, other.2, rfl, Prod.ext matched.1.symm rfl, matched.2⟩

/-- Two venues that answer every request alike and stay related. -/
structure Venue.Similar (environment : Environment) (venue : Venue σ) (other : Venue τ)
    (related : World σ → World τ → Prop) : Prop where
  place : ∀ leg world world', related world world' →
    Matches related (venue.placeOne environment leg world) (other.placeOne environment leg world')
  cancel : ∀ id world world', related world world' →
    Matches related (venue.cancelOne environment id world) (other.cancelOne environment id world')
  openOrders : ∀ symbol world world', related world world' →
    Matches related (venue.queryOpen environment symbol world) (other.queryOpen environment symbol world')

namespace Venue.Similar

variable {environment : Environment} {venue : Venue σ} {other : Venue τ} {related : World σ → World τ → Prop}
  {world : World σ} {world' : World τ} (similar : Venue.Similar environment venue other related)
include similar

theorem cancelAll (ids : List String) (now : related world world') :
    Matches related (venue.cancelAll environment ids world) (other.cancelAll environment ids world') := by
  induction ids generalizing world world' with
  | nil => exact ⟨rfl, now⟩
  | cons id rest inductionHypothesis =>
    obtain ⟨sameAnswer, between⟩ := similar.cancel id world world' now
    obtain ⟨sameReport, afterwards⟩ := inductionHypothesis between
    simp only [Venue.cancelAll]
    rw [sameAnswer, sameReport]
    split
    · exact ⟨rfl, afterwards⟩
    · exact ⟨rfl, afterwards⟩

theorem rollBack (newestFirst : List Order) (cause : VenueError) (now : related world world') :
    Matches related (venue.rollBack environment newestFirst cause world)
      (other.rollBack environment newestFirst cause world') := by
  obtain ⟨sameReport, afterwards⟩ := similar.cancelAll (newestFirst.map Order.id) now
  simp only [Venue.rollBack]
  split
  · exact ⟨rfl, now⟩
  · rw [sameReport]
    exact ⟨rfl, afterwards⟩

theorem placeAll (accepted : List Order) (legs : List OrderLeg) (now : related world world') :
    Matches related (venue.placeAll environment accepted legs world)
      (other.placeAll environment accepted legs world') := by
  induction legs generalizing accepted world world' with
  | nil => exact ⟨rfl, now⟩
  | cons leg rest inductionHypothesis =>
    have placed := similar.place leg world world' now
    simp only [Venue.placeAll]
    obtain ⟨answer, between, between', one, two, now⟩ := placed.parts
    rw [one, two]
    cases answer with
    | ok order => exact inductionHypothesis (order :: accepted) now
    | error error =>
      obtain ⟨sameError, afterwards⟩ := similar.rollBack accepted error now
      exact ⟨congrArg Except.error sameError, afterwards⟩

theorem submit (plan : ResolvedPlan) (now : related world world') :
    Matches related (venue.submit environment plan world) (other.submit environment plan world') := by
  simp only [Venue.submit]
  split
  · exact ⟨rfl, now⟩
  · split
    · exact ⟨rfl, now⟩
    · exact similar.placeAll [] _ now

theorem cancelEntries (symbol : String) (orders : List Order) (now : related world world') :
    Matches related (venue.cancelEntries environment symbol orders world)
      (other.cancelEntries environment symbol orders world') := by
  simp only [Venue.cancelEntries]
  split
  · exact ⟨rfl, now⟩
  · exact similar.cancelAll _ now

end Venue.Similar

/-! ### Engines -/

/-- Turns that differ at most in related worlds. -/
structure Turn.Matches (related : World σ → World τ → Prop) (one : Turn σ) (other : Turn τ) : Prop where
  result : one.result = other.result
  state : one.state = other.state
  world : related one.world other.world

namespace Engine

variable {engine : Engine} {venue : Venue σ} {other : Venue τ} {related : World σ → World τ → Prop}
  {world : World σ} {world' : World τ}
  (similar : Venue.Similar engine.options.environment venue other related) (state : EngineState)
include similar

theorem ownOrders_similar (now : related world world') :
    Matches related (engine.ownOrders venue state world) (engine.ownOrders other state world') := by
  have asked := similar.openOrders (engine.planSymbol state) world world' now
  simp only [ownOrders]
  split
  · exact ⟨rfl, now⟩
  · split
    · exact ⟨rfl, now⟩
    · obtain ⟨answer, after, after', one, two, now⟩ := asked.parts
      rw [one, two]
      cases answer with
      | ok shown => exact ⟨rfl, now⟩
      | error error => exact ⟨rfl, now⟩

theorem guardHolds_similar (guard : Guard) (now : related world world') :
    Matches related (engine.guardHolds venue state guard world) (engine.guardHolds other state guard world') := by
  cases guard with
  | always => exact ⟨rfl, now⟩
  | armTimeout => exact ⟨rfl, now⟩
  | expression condition =>
    simp only [guardHolds]
    split
    · exact ⟨rfl, now⟩
    · exact ⟨rfl, now⟩
  | liveOrder =>
    have asked := ownOrders_similar similar state now
    simp only [guardHolds]
    obtain ⟨answer, after, after', one, two, now⟩ := asked.parts
    rw [one, two]
    cases answer with
    | ok orders => exact ⟨rfl, now⟩
    | error error => exact ⟨rfl, now⟩

theorem select_similar (transitions : List Transition) (now : related world world') :
    Matches related (engine.select venue state transitions world)
      (engine.select other state transitions world') := by
  induction transitions generalizing world world' with
  | nil => exact ⟨rfl, now⟩
  | cons transition rest inductionHypothesis =>
    have asked := guardHolds_similar similar state transition.guard now
    simp only [select]
    obtain ⟨answer, after, after', one, two, now⟩ := asked.parts
    rw [one, two]
    match answer with
    | .ok true => exact ⟨rfl, now⟩
    | .ok false => exact inductionHypothesis now
    | .error error => exact ⟨rfl, now⟩

omit state in
theorem submitPlan_similar (staged : Staged) (plan : ResolvedPlan) (now : related world world') :
    Matches related (engine.submitPlan venue staged plan world) (engine.submitPlan other staged plan world') := by
  have submitted := similar.submit plan now
  simp only [submitPlan]
  split
  · exact ⟨rfl, now⟩
  · obtain ⟨answer, after, after', one, two, now⟩ := submitted.parts
    rw [one, two]
    cases answer with
    | ok orders => exact ⟨rfl, now⟩
    | error error => exact ⟨rfl, now⟩

theorem perform_similar (staged : Staged) (action : Action) (now : related world world') :
    Matches related (engine.perform venue state staged action world)
      (engine.perform other state staged action world') := by
  cases action with
  | log message => exact ⟨rfl, now⟩
  | startTimer bars => exact ⟨rfl, now⟩
  | submit planId =>
    simp only [perform]
    split
    · exact ⟨rfl, now⟩
    · exact submitPlan_similar similar staged _ now
  | cancelEntries =>
    have asked := ownOrders_similar similar state now
    simp only [perform]
    obtain ⟨answer, after, after', one, two, now⟩ := asked.parts
    rw [one, two]
    cases answer with
    | error error => exact ⟨rfl, now⟩
    | ok orders =>
      obtain ⟨sameReport, afterwards⟩ := similar.cancelEntries (engine.planSymbol state) orders now
      dsimp only
      rw [sameReport]
      exact ⟨rfl, afterwards⟩

theorem performAll_similar (staged : Staged) (actions : List Action) (now : related world world') :
    Matches related (engine.performAll venue state staged actions world)
      (engine.performAll other state staged actions world') := by
  induction actions generalizing staged world world' with
  | nil => exact ⟨rfl, now⟩
  | cons action rest inductionHypothesis =>
    have performed := perform_similar similar state staged action now
    simp only [performAll]
    obtain ⟨attempt, after, after', one, two, now⟩ := performed.parts
    rw [one, two]
    cases attempt with
    | staged staged => exact inductionHypothesis staged now
    | refused reason => exact ⟨rfl, now⟩
    | failed error => exact ⟨rfl, now⟩

theorem take_similar (timestamp : Calendar.Instant) (transition : Transition) (now : related world world') :
    Turn.Matches related (engine.take venue state timestamp transition world)
      (engine.take other state timestamp transition world') := by
  simp only [take]
  split
  · exact ⟨rfl, rfl, now⟩
  · next staged prepared =>
    have performed := performAll_similar similar state staged transition.actions now
    obtain ⟨attempt, after, after', one, two, now⟩ := performed.parts
    rw [one, two]
    cases attempt with
    | staged staged => exact ⟨rfl, rfl, now⟩
    | refused reason => exact ⟨rfl, rfl, now⟩
    | failed error => exact ⟨rfl, rfl, now⟩

theorem advance_similar (timestamp : Calendar.Instant) (now : related world world') :
    Turn.Matches related (engine.advance venue state timestamp world)
      (engine.advance other state timestamp world') := by
  have selected := select_similar similar state (engine.strategy.transitionsFrom state.stage) now
  simp only [advance]
  obtain ⟨answer, after, after', one, two, now⟩ := selected.parts
  rw [one, two]
  match answer with
  | .error error => exact ⟨rfl, rfl, now⟩
  | .ok none => exact ⟨rfl, rfl, now⟩
  | .ok (some transition) => exact take_similar similar state timestamp transition now

/-- Over similar venues a bar has the same outcome and leaves the same state. -/
theorem processBar_similar (bar : Bar) (now : related world world') :
    Turn.Matches related (engine.processBar venue state bar world) (engine.processBar other state bar world') := by
  simp only [processBar]
  split
  · exact ⟨rfl, rfl, now⟩
  · split
    · obtain ⟨sameResult, sameState, afterwards⟩ := advance_similar similar
        (engine.observe { state with lastTimestamp := some bar.timestamp } bar) bar.timestamp now
      unfold logError
      rw [sameResult]
      split
      · exact ⟨sameResult, sameState, afterwards⟩
      · exact ⟨rfl, by rw [sameState], afterwards⟩
    · exact ⟨rfl, rfl, now⟩

end Engine

/-! ### What requests keep -/

/-- Every request keeps a property of the world. -/
structure Venue.Keeps (environment : Environment) (venue : Venue σ) (holds : World σ → Prop) : Prop where
  place : ∀ leg world, holds world → holds (venue.placeOne environment leg world).2
  cancel : ∀ id world, holds world → holds (venue.cancelOne environment id world).2
  openOrders : ∀ symbol world, holds world → holds (venue.queryOpen environment symbol world).2

theorem Venue.Keeps.similar {environment : Environment} {venue : Venue σ} {holds : World σ → Prop}
    (keeps : venue.Keeps environment holds) :
    Venue.Similar environment venue venue fun one other => one = other ∧ holds other where
  place leg world _ now := by
    obtain ⟨rfl, now⟩ := now
    exact ⟨rfl, rfl, keeps.place leg world now⟩
  cancel id world _ now := by
    obtain ⟨rfl, now⟩ := now
    exact ⟨rfl, rfl, keeps.cancel id world now⟩
  openOrders symbol world _ now := by
    obtain ⟨rfl, now⟩ := now
    exact ⟨rfl, rfl, keeps.openOrders symbol world now⟩

theorem Engine.processBar_keeps {engine : Engine} {venue : Venue σ} {holds : World σ → Prop}
    (keeps : venue.Keeps engine.options.environment holds) (state : EngineState) (bar : Bar) {world : World σ}
    (now : holds world) : holds (engine.processBar venue state bar world).world :=
  (processBar_similar keeps.similar state bar ⟨rfl, now⟩).world.2

end TradingStrategy

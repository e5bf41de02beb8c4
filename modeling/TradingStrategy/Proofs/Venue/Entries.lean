import TradingStrategy.Proofs.Venue.Journal
import TradingStrategy.Proofs.Venue.Rollback

/-!
Entry orders in the books of the paper venue.

Owns:
- the books that a request visits on its way;
- `Carries.keeps`: a property that no request breaks holds at every point of a run;
- two such properties: a bound on the entry orders by those that were sent, and, where cancellations do not get through,
  that every order keeps the state in which it was accepted;
- that a bracket has one entry leg.
-/

namespace TradingStrategy

/-- A leg enters a position. -/
def OrderLeg.isEntry (leg : OrderLeg) : Bool :=
  leg.role == .entry

namespace PaperBook

/-- The entry orders. -/
def entries (book : PaperBook) : List Order :=
  book.orders.filter Order.isEntry

/-- The entry orders that are open. -/
def openEntries (book : PaperBook) : List Order :=
  book.entries.filter Order.isOpen

/-- The number of entry orders of a kind. -/
def entryCount (book : PaperBook) (kind : Order → Bool) : Nat :=
  book.orders.countP fun order => order.isEntry && kind order

theorem entries_length (book : PaperBook) : book.entries.length = book.entryCount fun _ => true := by
  simp only [entries, entryCount, Bool.and_true, List.countP_eq_length_filter]

theorem openEntries_length (book : PaperBook) : book.openEntries.length = book.entryCount Order.isOpen := by
  simp only [openEntries, entries, entryCount, List.filter_filter, ← List.countP_eq_length_filter, Bool.and_comm]

end PaperBook

/-- A bracket has one entry leg, and all its legs are for the symbol of its plan. -/
theorem ResolvedPlan.bracket_legs {plan : ResolvedPlan} {legs : List OrderLeg} (bracketed : plan.bracket = .ok legs) :
    legs.countP OrderLeg.isEntry = 1 ∧ ∀ leg ∈ legs, leg.symbol = plan.symbol := by
  have targets : ∀ (targets : List ResolvedTarget) (index : Nat),
      (plan.targetLegs index targets).countP OrderLeg.isEntry = 0 ∧
        ∀ leg ∈ plan.targetLegs index targets, leg.symbol = plan.symbol := by
    intro targets
    induction targets with
    | nil => simp [targetLegs]
    | cons target rest inductionHypothesis =>
      intro index
      rw [targetLegs]
      split
      · exact inductionHypothesis (index + 1)
      · obtain ⟨noEntry, symbols⟩ := inductionHypothesis (index + 1)
        refine ⟨by rw [List.countP_cons, noEntry]; rfl, ?_⟩
        intro leg member
        rcases List.mem_cons.mp member with rfl | member
        · rfl
        · exact symbols leg member
  unfold bracket at bracketed
  split at bracketed
  · contradiction
  · obtain ⟨noEntry, symbols⟩ := targets plan.targets 0
    rw [← Except.ok.inj bracketed]
    refine ⟨by rw [List.countP_cons, List.countP_cons, noEntry]; rfl, ?_⟩
    intro leg member
    rcases List.mem_cons.mp member with rfl | member
    · rfl
    · rcases List.mem_cons.mp member with rfl | member
      · rfl
      · exact symbols leg member

namespace PaperScript

variable (script : PaperScript) (environment : Environment)

/-! ### The books on the way -/

/-- What a request can make of a book, at any of its points. A cancellation that does not get through changes
nothing. -/
def Visits (request : Request) (before after : PaperBook) : Prop :=
  match request with
  | .place leg => after.orders = before.orders ∨
      after.orders = before.orders ++ [.ofLeg before.nextId leg script.accepted]
  | .cancel id => after.orders = before.orders ∨
      script.Cancels environment ∧ after.orders = before.orders.map (Order.withdrawn [id])
  | .openOrders _ => after.orders = before.orders

theorem afterPlacement_visits (placement : Nat) (leg : OrderLeg) (book : PaperBook) :
    script.Visits environment (.place leg) book (script.afterPlacement placement leg book.count) := by
  unfold afterPlacement accept
  cases script.rejection? placement leg with
  | some reason => exact .inl rfl
  | none => exact .inr rfl

theorem afterCancel_visits (timely : script.latency + script.cancelLatency ≤ environment.timeout) (id : String)
    (book : PaperBook) : script.Visits environment (.cancel id) book (script.afterCancel id book) := by
  unfold afterCancel
  match refusal : script.cancelError? id book with
  | some error => exact .inl rfl
  | none =>
    refine .inr ⟨⟨(cancelError?_none.mp refusal).1, timely⟩, ?_⟩
    rw [Order.withdrawn_one]
    rfl

theorem visited_place (leg : OrderLeg) (world : World PaperBook) :
    ∀ book ∈ (script.place leg).visited (world.clock + environment.timeout) world,
      script.Visits environment (.place leg) world.venue book := by
  intro book visited
  simp only [place, Call.visited] at visited
  split at visited
  · rcases List.mem_cons.mp visited with rfl | visited
    · exact .inl rfl
    · split at visited
      · rw [List.mem_singleton.mp visited]
        exact script.afterPlacement_visits environment _ leg world.venue
      · contradiction
  · contradiction

theorem visited_cancel (id : String) (world : World PaperBook) :
    ∀ book ∈ (script.cancel id).visited (world.clock + environment.timeout) world,
      script.Visits environment (.cancel id) world.venue book := by
  intro book visited
  simp only [cancel, Call.visited] at visited
  split at visited
  · split at visited
    · rw [List.mem_singleton.mp visited]
      exact script.afterCancel_visits environment (by omega) id world.venue
    · contradiction
  · contradiction

theorem visited_openOrders (symbol : String) (world : World PaperBook) :
    ∀ book ∈ (script.openOrders symbol).visited (world.clock + environment.timeout) world,
      script.Visits environment (.openOrders symbol) world.venue book := by
  intro book visited
  simp only [openOrders, Call.visited] at visited
  split at visited
  · rw [List.mem_singleton.mp visited]
    exact rfl
  · contradiction

theorem placeOne_visits (leg : OrderLeg) (world : World PaperBook) :
    script.Visits environment (.place leg) world.venue (script.venue.placeOne environment leg world).2.venue := by
  rcases script.placeOne_cases environment leg world with ⟨after, answered, longer⟩ | ⟨error, after, answered, _, same⟩
  · rw [answered]
    exact .inr longer
  · rw [answered]
    exact .inl same

theorem cancelOne_visits (id : String) (world : World PaperBook) :
    script.Visits environment (.cancel id) world.venue (script.venue.cancelOne environment id world).2.venue := by
  rcases script.cancelOne_cases environment id world with
    ⟨after, answered, through, marked⟩ | ⟨error, after, answered, same, _⟩
  · rw [answered]
    exact .inr ⟨through, by rw [marked]⟩
  · rw [answered]
    exact .inl (by rw [same])

theorem queryOpen_visits (live : environment.dryRun = false) (symbol : String) (world : World PaperBook) :
    script.Visits environment (.openOrders symbol) world.venue
      (environment.request .openOrders (script.venue.openOrders symbol) world).2.venue := by
  have asked := script.queryOpen_eq environment live symbol world
  rw [Venue.queryOpen, if_neg (by simp [live])] at asked
  rw [asked]
  split
  · exact rfl
  · exact rfl

/-! ### What is carried along a journal -/

/-- A property of the legs that were sent and of a book that no request breaks, at none of its points. -/
structure Carries (environment : Environment) (good : List OrderLeg → PaperBook → Prop) : Prop where
  visits : ∀ request sent before after, script.Visits environment request before after → good sent before →
    good (sent ++ request.leg?.toList) after
  sends : ∀ leg sent book, good sent book → good (sent ++ [leg]) book

/-- A property holds of every book since a journal was written, together with the legs that were sent since. -/
def Since (journal : List (Note PaperBook)) (good : List OrderLeg → PaperBook → Prop)
    (world : World (Recorded PaperBook)) : Prop :=
  ∃ notes, world.venue.journal = journal ++ notes ∧
    ∀ book ∈ world.venue.inner :: notes.filterMap Note.state?, good (notes.filterMap Note.leg?) book

variable {script environment} {good : List OrderLeg → PaperBook → Prop}

theorem Since.start {world : World (Recorded PaperBook)} (now : good [] world.venue.inner) :
    Since world.venue.journal good world := by
  refine ⟨[], (List.append_nil _).symm, fun book member => ?_⟩
  rw [List.mem_singleton.mp member]
  exact now

theorem Carries.request (carries : script.Carries environment good) {journal : List (Note PaperBook)}
    {request : Request} {world after : World (Recorded PaperBook)} {states : List PaperBook}
    (noted : after.venue.journal = world.venue.journal ++ Note.ofRequest request states)
    (visits : ∀ book ∈ after.venue.inner :: states, script.Visits environment request world.venue.inner book)
    (now : Since journal good world) : Since journal good after := by
  obtain ⟨notes, written, holds⟩ := now
  refine ⟨notes ++ Note.ofRequest request states, by rw [noted, written, List.append_assoc], ?_⟩
  rw [List.filterMap_append, List.filterMap_append, Note.legs_ofRequest, Note.states_ofRequest]
  intro book member
  rw [← List.cons_append, List.mem_append, List.mem_cons] at member
  have fresh (visited : book ∈ after.venue.inner :: states) :
      good (notes.filterMap Note.leg? ++ request.leg?.toList) book :=
    carries.visits request _ _ _ (visits book visited) (holds _ (List.mem_cons_self))
  rcases member with (rfl | member) | member
  · exact fresh (List.mem_cons_self)
  · have earlier := holds book (List.mem_cons_of_mem _ member)
    cases request.leg? with
    | none => rw [Option.toList_none, List.append_nil]; exact earlier
    | some leg => exact carries.sends leg _ book earlier
  · exact fresh (List.mem_cons_of_mem _ member)

/-- What no request breaks holds at every point of a journal. -/
theorem Carries.keeps (carries : script.Carries environment good) (live : environment.dryRun = false)
    (journal : List (Note PaperBook)) : script.venue.recorded.Keeps environment (Since journal good) where
  place leg world now := by
    have noted := environment.request_noted .place (.place leg) (script.venue.place leg) world
    rw [Venue.placeOne, Venue.recorded, noted]
    refine carries.request rfl ?_ now
    intro book member
    rcases List.mem_cons.mp member with rfl | visited
    · exact script.placeOne_visits environment leg world.inner
    · exact script.visited_place environment leg world.inner book visited
  cancel id world now := by
    have noted := environment.request_noted .cancel (.cancel id) (script.venue.cancel id) world
    rw [Venue.cancelOne, Venue.recorded, noted]
    refine carries.request rfl ?_ now
    intro book member
    rcases List.mem_cons.mp member with rfl | visited
    · exact script.cancelOne_visits environment id world.inner
    · exact script.visited_cancel environment id world.inner book visited
  openOrders symbol world now := by
    have noted := environment.request_noted .openOrders (.openOrders symbol) (script.venue.openOrders symbol) world
    rw [Venue.queryOpen, if_neg (by simp [live]), Venue.recorded, noted]
    refine carries.request rfl ?_ now
    intro book member
    rcases List.mem_cons.mp member with rfl | visited
    · exact script.queryOpen_visits environment live symbol world.inner
    · exact script.visited_openOrders environment symbol world.inner book visited

/-! ### Two properties that are carried -/

variable (script environment)

/-- There are never more entry orders of a kind than there were and have been sent, if no cancellation makes an order one
of that kind. -/
theorem bounded_carries {kind : Order → Bool}
    (fades : ∀ order, kind { order with status := .cancelled } = true → kind order = true) (limit : Nat) :
    script.Carries environment fun sent book => book.entryCount kind ≤ limit + sent.countP OrderLeg.isEntry where
  visits request sent before after visited bounded := by
    unfold PaperBook.entryCount at bounded ⊢
    have kept (same : after.orders = before.orders) :
        after.orders.countP (fun order => order.isEntry && kind order) ≤
          limit + (sent ++ request.leg?.toList).countP OrderLeg.isEntry := by
      rw [same, List.countP_append]
      omega
    cases request with
    | place leg =>
      rcases visited with same | longer
      · exact kept same
      · have added : [Order.ofLeg before.nextId leg script.accepted].countP (fun order => order.isEntry && kind order) ≤
            [leg].countP OrderLeg.isEntry := by
          have sameRole : (Order.ofLeg before.nextId leg script.accepted).isEntry = leg.isEntry := rfl
          rw [List.countP_singleton, List.countP_singleton, sameRole]
          cases leg.isEntry with
          | true => simp only [Bool.true_and, if_true]; split <;> omega
          | false => simp
        rw [longer, List.countP_append, List.countP_append]
        simp only [Request.leg?, Option.toList_some]
        omega
    | cancel id =>
      rcases visited with same | ⟨_, marked⟩
      · exact kept same
      · have fewer : (before.orders.map (Order.withdrawn [id])).countP (fun order => order.isEntry && kind order) ≤
            before.orders.countP fun order => order.isEntry && kind order := by
          rw [List.countP_map]
          apply List.countP_mono_left
          intro order _ counted
          simp only [Function.comp_apply, Bool.and_eq_true, Order.isEntry, Order.withdrawn_leg] at counted ⊢
          refine ⟨counted.1, ?_⟩
          have isKind := counted.2
          unfold Order.withdrawn at isKind
          split at isKind
          · exact fades order isKind
          · exact isKind
        rw [marked]
        simp only [Request.leg?, Option.toList_none, List.append_nil]
        omega
    | openOrders symbol => exact kept visited
  sends leg sent book bounded := by
    rw [List.countP_append]
    omega

/-- Where cancellations do not get through, every order keeps the state in which it was accepted. -/
theorem accepted_carries (never : ¬script.Cancels environment) :
    script.Carries environment fun _ book => ∀ order ∈ book.orders, order.status = script.accepted where
  visits request sent before after visited accepted := by
    cases request with
    | place leg =>
      rcases visited with same | longer
      · rw [same]
        exact accepted
      · rw [longer]
        intro order member
        rcases List.mem_append.mp member with member | new
        · exact accepted order member
        · rw [List.mem_singleton.mp new]
          rfl
    | cancel id =>
      rcases visited with same | ⟨through, _⟩
      · rw [same]
        exact accepted
      · exact absurd through never
    | openOrders symbol =>
      rw [show after.orders = before.orders from visited]
      exact accepted
  sends _ _ _ accepted := accepted

end PaperScript

end TradingStrategy

import Mathlib.Data.List.Nodup
import TradingStrategy.Venue.Paper

/-!
Requests to the paper venue.

Owns:
- the answer to each request and the book that it leaves, as equations in the time-out and the pauses of the script;
- `PaperScript.Reachable`: the books that calls can lead to, with their sections in any order;
- that the orders of such a book are numbered in the order of their acceptance, so that no two share an id.
-/

namespace TradingStrategy

/-- An error of a single request. -/
def VenueError.IsDirect : VenueError → Prop
  | rolledBack .. => False
  | rejected _ | timedOut .. | transport _ => True

/-- An order as cancellations leave it. -/
def Order.withdrawn (ids : List String) (order : Order) : Order :=
  if order.id ∈ ids then { order with status := .cancelled } else order

theorem Order.withdrawn_id (order : Order) (ids : List String) : (order.withdrawn ids).id = order.id := by
  unfold withdrawn
  split
  · rfl
  · rfl

theorem Order.withdrawn_leg (order : Order) (ids : List String) : (order.withdrawn ids).leg = order.leg := by
  unfold withdrawn
  split
  · rfl
  · rfl

theorem Order.withdrawn_one (id : String) :
    Order.withdrawn [id] = fun order => if order.id = id then { order with status := .cancelled } else order := by
  funext order
  simp only [withdrawn, List.mem_singleton]

/-- Two texts that differ in a number at their end at most differ in this number. -/
theorem counted_injective {front : String} {position other : Nat}
    (same : front ++ toString position = front ++ toString other) : position = other := by
  have digits := congrArg String.toList same
  rw [String.toList_append, String.toList_append] at digits
  have digits := List.append_cancel_left digits
  rw [Nat.toString_eq_ofList_toDigits, Nat.toString_eq_ofList_toDigits, String.toList_ofList, String.toList_ofList]
    at digits
  have values := congrArg (Nat.ofDigitChars 10 · 0) digits
  simpa [Nat.ofDigitChars_ten_toDigits] using values

/-! ### Numbered books -/

namespace PaperBook

/-- The orders are numbered in the order of their acceptance. -/
def Numbered (book : PaperBook) : Prop :=
  book.orders.map Order.id = (List.range book.orders.length).map fun index => orderId (index + 1)

theorem orderId_injective {position other : Nat} (same : orderId position = orderId other) : position = other :=
  counted_injective same

variable {book : PaperBook}

theorem Numbered.nodup (numbered : book.Numbered) : (book.orders.map Order.id).Nodup := by
  rw [numbered, List.Nodup, List.pairwise_map]
  refine List.nodup_range.imp ?_
  intro index other different same
  exact different (Nat.succ.inj (orderId_injective same))

theorem Numbered.add (numbered : book.Numbered) (leg : OrderLeg) (status : OrderStatus) :
    (book.add (.ofLeg book.nextId leg status)).Numbered := by
  unfold Numbered PaperBook.add
  rw [List.map_append, numbered, List.length_append, List.length_singleton, List.range_succ, List.map_append]
  rfl

theorem Numbered.ofIds (numbered : book.Numbered) {other : PaperBook}
    (same : other.orders.map Order.id = book.orders.map Order.id) : other.Numbered := by
  have sameLength := congrArg List.length same
  rw [List.length_map, List.length_map] at sameLength
  unfold Numbered
  rw [same, sameLength]
  exact numbered

theorem Numbered.ofOrders (numbered : book.Numbered) {other : PaperBook} (same : other.orders = book.orders) :
    other.Numbered :=
  numbered.ofIds (by rw [same])

theorem Numbered.withdrawn (numbered : book.Numbered) {other : PaperBook} {ids : List String}
    (marked : other.orders = book.orders.map (Order.withdrawn ids)) : other.Numbered := by
  apply numbered.ofIds
  rw [marked, List.map_map]
  exact List.map_congr_left fun order _ => order.withdrawn_id ids

theorem Numbered.change (numbered : book.Numbered) (id : String) {update : Order → Order}
    (keepsId : ∀ order, (update order).id = order.id) : (book.change id update).Numbered := by
  apply numbered.ofIds
  simp only [PaperBook.change, List.map_map]
  apply List.map_congr_left
  intro order _
  simp only [Function.comp_apply]
  split
  · exact keepsId order
  · rfl

theorem order?_some {id : String} {order : Order} (found : book.order? id = some order) :
    order ∈ book.orders ∧ order.id = id :=
  ⟨List.mem_of_find?_eq_some found, by simpa using List.find?_some found⟩

theorem Numbered.order?_eq (numbered : book.Numbered) {order : Order} (member : order ∈ book.orders) :
    book.order? order.id = some order := by
  match found : book.order? order.id with
  | none =>
    have := List.find?_eq_none.mp found order member
    simp at this
  | some other =>
    obtain ⟨otherMember, sameId⟩ := order?_some found
    rw [List.inj_on_of_nodup_map numbered.nodup otherMember member sameId]

end PaperBook

/-! ### The answer to a request -/

namespace PaperScript

variable (script : PaperScript) (environment : Environment)

/-- A placement is counted in front of its own pause. The leg is accepted or rejected behind it. -/
theorem placeOne_eq (leg : OrderLeg) (world : World PaperBook) :
    script.venue.placeOne environment leg world =
      let placement := world.venue.placements + 1
      let pause := script.latency + script.placementPause placement
      if script.latency ≤ environment.timeout then
        if pause ≤ environment.timeout then
          (script.accept placement leg world.venue.count,
            ⟨world.clock + pause, script.afterPlacement placement leg world.venue.count⟩)
        else (.error (.timedOut .place environment.timeout), ⟨world.clock + environment.timeout, world.venue.count⟩)
      else (.error (.timedOut .place environment.timeout), ⟨world.clock + environment.timeout, world.venue⟩) := by
  simp only [Venue.placeOne, Environment.request, venue, place, Call.within, Nat.add_le_add_iff_left, Nat.add_assoc]
  by_cases arrives : script.latency ≤ environment.timeout
  · simp only [arrives, if_true]
    by_cases ends : script.latency + script.placementPause (world.venue.placements + 1) ≤ environment.timeout
    · simp only [ends, if_true]
    · simp only [ends, if_false]
  · simp only [arrives, if_false]

theorem cancelOne_eq (id : String) (world : World PaperBook) :
    script.venue.cancelOne environment id world =
      if script.latency + script.cancelLatency ≤ environment.timeout then
        ((match script.cancelError? id world.venue with
          | some error => .error error
          | none => .ok ()),
          ⟨world.clock + (script.latency + script.cancelLatency), script.afterCancel id world.venue⟩)
      else (.error (.timedOut .cancel environment.timeout), ⟨world.clock + environment.timeout, world.venue⟩) := by
  simp only [Venue.cancelOne, Environment.request, venue, cancel, Call.within, Nat.add_le_add_iff_left, Nat.add_assoc]
  by_cases arrives : script.latency ≤ environment.timeout
  · simp only [arrives, if_true]
    by_cases ends : script.latency + script.cancelLatency ≤ environment.timeout
    · cases script.cancelError? id world.venue with
      | some error => simp only [ends, if_true]
      | none => simp only [ends, if_true]
    · simp only [ends, if_false]
  · have late : ¬script.latency + script.cancelLatency ≤ environment.timeout := by omega
    simp only [arrives, late, if_false]

theorem queryOpen_eq (live : environment.dryRun = false) (symbol : String) (world : World PaperBook) :
    script.venue.queryOpen environment symbol world =
      if script.latency ≤ environment.timeout then
        (.ok (world.venue.openOrders symbol), ⟨world.clock + script.latency, world.venue⟩)
      else (.error (.timedOut .openOrders environment.timeout), ⟨world.clock + environment.timeout, world.venue⟩) := by
  simp only [Venue.queryOpen, live, Bool.false_eq_true, if_false, Environment.request, venue, openOrders, Call.within,
    Nat.add_le_add_iff_left]
  by_cases arrives : script.latency ≤ environment.timeout
  · simp only [arrives, if_true]
  · simp only [arrives, if_false]

/-- A placement adds the order of its leg to the book, or it fails and adds nothing. -/
theorem placeOne_cases (leg : OrderLeg) (world : World PaperBook) :
    (∃ after, script.venue.placeOne environment leg world =
        (.ok (.ofLeg world.venue.nextId leg script.accepted), after) ∧
      after.venue.orders = world.venue.orders ++ [.ofLeg world.venue.nextId leg script.accepted]) ∨
    ∃ error after, script.venue.placeOne environment leg world = (.error error, after) ∧ error.IsDirect ∧
      after.venue.orders = world.venue.orders := by
  rw [placeOne_eq]
  dsimp only
  split
  · split
    · match rejected : script.rejection? (world.venue.placements + 1) leg with
      | some reason =>
        have refused : script.accept (world.venue.placements + 1) leg world.venue.count = .error (.rejected reason) := by
          simp only [accept, rejected]
        exact .inr ⟨.rejected reason, _, by rw [refused], trivial, by simp only [afterPlacement, refused]; rfl⟩
      | none =>
        have taken : script.accept (world.venue.placements + 1) leg world.venue.count =
            .ok (.ofLeg world.venue.nextId leg script.accepted) := by
          simp only [accept, rejected]
          rfl
        exact .inl ⟨_, by rw [taken], by simp only [afterPlacement, taken]; rfl⟩
    · exact .inr ⟨_, _, rfl, trivial, rfl⟩
  · exact .inr ⟨_, _, rfl, trivial, rfl⟩

/-- Cancellations get through: the script does not fail them, and their pauses fit into the time-out. -/
def Cancels : Prop :=
  script.failingCancels = false ∧ script.latency + script.cancelLatency ≤ environment.timeout

variable {script} in
theorem cancelError?_none {id : String} {book : PaperBook} : script.cancelError? id book = none ↔
    script.failingCancels = false ∧ ∃ order, book.order? id = some order ∧ order.isOpen = true := by
  unfold cancelError?
  by_cases failing : script.failingCancels = true
  · simp [failing]
  · match found : book.order? id with
    | none => simp [failing]
    | some order =>
      by_cases isOpen : order.isOpen = true
      · simp [failing, isOpen]
      · simp [failing, isOpen]

/-- A cancellation marks an order that it finds open, or it fails and changes nothing. It fails only if cancellations do
not get through or if the order is not open. -/
theorem cancelOne_cases (id : String) (world : World PaperBook) :
    (∃ after, script.venue.cancelOne environment id world = (.ok (), after) ∧ script.Cancels environment ∧
      after.venue = { world.venue with orders := world.venue.orders.map (Order.withdrawn [id]) }) ∨
    ∃ error after, script.venue.cancelOne environment id world = (.error error, after) ∧ after.venue = world.venue ∧
      ¬(script.Cancels environment ∧ ∃ order, world.venue.order? id = some order ∧ order.isOpen = true) := by
  rw [cancelOne_eq]
  by_cases ends : script.latency + script.cancelLatency ≤ environment.timeout
  · simp only [ends, if_true]
    match refusal : script.cancelError? id world.venue with
    | some error =>
      refine .inr ⟨error, _, rfl, by simp only [afterCancel, refusal], ?_⟩
      rintro ⟨through, found⟩
      rw [cancelError?_none.mpr ⟨through.1, found⟩] at refusal
      contradiction
    | none =>
      refine .inl ⟨_, rfl, ⟨(cancelError?_none.mp refusal).1, ends⟩, ?_⟩
      simp only [afterCancel, refusal, PaperBook.change, Order.withdrawn_one]
  · simp only [ends, if_false]
    exact .inr ⟨_, _, rfl, rfl, fun through => ends through.1.2⟩

/-! ### Reachable books -/

/-- The books that calls can lead to. Their sections may be interleaved and cut off in any way, and orders may be filled
in between. -/
inductive Reachable : PaperBook → Prop where
  | empty : Reachable .empty
  | count (book : PaperBook) : Reachable book → Reachable book.count
  | place (book : PaperBook) (placement : Nat) (leg : OrderLeg) :
      Reachable book → Reachable (script.afterPlacement placement leg book)
  | cancel (book : PaperBook) (id : String) : Reachable book → Reachable (script.afterCancel id book)
  | fill (book filled : PaperBook) (id : String) (price : Float) :
      Reachable book → book.fill id price = .ok filled → Reachable filled

variable {script}

theorem Reachable.numbered {book : PaperBook} (reachable : script.Reachable book) : book.Numbered := by
  induction reachable with
  | empty => rfl
  | count book _ inductionHypothesis => exact inductionHypothesis
  | place book placement leg _ inductionHypothesis =>
    unfold afterPlacement accept
    cases script.rejection? placement leg with
    | some reason => exact inductionHypothesis
    | none => exact inductionHypothesis.add leg script.accepted
  | cancel book id _ inductionHypothesis =>
    unfold afterCancel
    split
    · exact inductionHypothesis
    · exact inductionHypothesis.change id fun _ => rfl
  | fill book filled id price _ done inductionHypothesis =>
    unfold PaperBook.fill at done
    split at done
    · contradiction
    · rw [← Except.ok.inj done]
      exact inductionHypothesis.change id fun _ => rfl

end PaperScript

end TradingStrategy

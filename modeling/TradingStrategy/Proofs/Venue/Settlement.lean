import Mathlib.Data.List.Induction
import TradingStrategy.Proofs.Venue.Interleaving
import TradingStrategy.Proofs.Venue.Paper

/-!
Settled orders of the paper venue.

Owns:
- `Call.Moves`: calls whose sections all move the venue along a relation, and that such calls may overlap in any way;
- what happens at a paper venue: callers move, and fills are reported;
- that no section of a call changes a settled order: `PaperBook.Spares`;
- `settled_order_changes_by_fills`: a settled order is what the fills reported since then have made of it.

An order is settled when it is filled, cancelled or rejected. A cancellation asks whether its order is open, the report
of a fill does not.
-/

namespace TradingStrategy

variable {σ α β : Type}

/-- The states in which an order is settled. -/
def OrderStatus.settled : List OrderStatus :=
  [filled, cancelled, rejected]

theorem OrderStatus.mem_settled {status : OrderStatus} : status ∈ settled ↔ status.isOpen = false := by
  cases status <;> decide

/-! ### Calls along a relation -/

namespace Call

/-- Every section of a call moves the venue along a relation. -/
def Moves (related : σ → σ → Prop) : Call σ α → Prop
  | done _ => True
  | pause _ rest => rest.Moves related
  | step update next => ∀ clock state, related state (update clock state) ∧ (next clock state).Moves related

variable {related : σ → σ → Prop} {call : Call σ α}

theorem Moves.andThen (moves : call.Moves related) {next : α → Call σ β} (following : ∀ value, (next value).Moves related) :
    (call.andThen next).Moves related := by
  induction call with
  | done answer =>
    cases answer with
    | ok value => exact following value
    | error error => trivial
  | pause milliseconds rest inductionHypothesis => exact inductionHypothesis moves
  | step update next inductionHypothesis =>
    exact fun clock state => ⟨(moves clock state).1, inductionHypothesis clock state (moves clock state).2⟩

theorem Moves.told (moves : call.Moves related) (tell : α → Answer) : (call.told tell).Moves related :=
  moves.andThen fun _ => trivial

theorem Moves.next (moves : call.Moves related) {update : Nat → σ → σ} {next : Nat → σ → Call σ α}
    (goes : call.next? = some (update, next)) (clock : Nat) (state : σ) :
    related state (update clock state) ∧ (next clock state).Moves related := by
  induction call with
  | done answer => contradiction
  | pause milliseconds rest inductionHypothesis => exact inductionHypothesis moves goes
  | step first following =>
    obtain ⟨rfl, rfl⟩ := Prod.mk.inj (Option.some.inj goes)
    exact moves clock state

end Call

namespace Shared

/-- All that callers have left to do moves the venue along a relation. -/
def Moves (related : σ → σ → Prop) (shared : Shared σ) : Prop :=
  ∀ caller ∈ shared.callers, caller.rest.Moves related

variable {venue : Venue σ} {related : σ → σ → Prop} {shared : Shared σ}

theorem Moves.move (moves : shared.Moves related) (calls : ∀ request, (venue.call request).Moves related) (move : Move) :
    (shared.move venue move).Moves related := by
  intro caller member
  cases move with
  | start request =>
    rcases List.mem_append.mp member with member | started
    · exact moves caller member
    · rw [List.mem_singleton.mp started]
      exact calls request
  | wait milliseconds => exact moves caller member
  | proceed index =>
    obtain same | ⟨before, update, next, found, goes, proceeds⟩ := proceed_cases venue shared index
    · rw [same] at member
      exact moves caller member
    · rw [proceeds] at member
      rcases List.mem_or_eq_of_mem_set member with member | rfl
      · exact moves caller member
      · exact ((moves before (List.mem_of_getElem? found)).next goes shared.clock shared.venue).2

/-- A move leaves the venue as it is, or it moves it along the relation. -/
theorem Moves.moved (moves : shared.Moves related) (venue : Venue σ) (move : Move) :
    (shared.move venue move).venue = shared.venue ∨ related shared.venue (shared.move venue move).venue := by
  cases move with
  | start request => exact .inl rfl
  | wait milliseconds => exact .inl rfl
  | proceed index =>
    obtain same | ⟨caller, update, next, found, goes, proceeds⟩ := proceed_cases venue shared index
    · exact .inl (by rw [same])
    · rw [proceeds]
      exact .inr ((moves caller (List.mem_of_getElem? found)).next goes shared.clock shared.venue).1

end Shared

/-! ### Sections of the paper venue -/

namespace PaperBook

/-- One book follows another in which every settled order is as it was. -/
structure Spares (book after : PaperBook) : Prop where
  numbered : book.Numbered → after.Numbered
  settled : ∀ id order, book.order? id = some order → order.status ∈ OrderStatus.settled → after.order? id = some order

variable {book : PaperBook}

theorem Spares.refl (book : PaperBook) : book.Spares book :=
  ⟨id, fun _ _ found _ => found⟩

theorem order?_change (book : PaperBook) (id other : String) {update : Order → Order}
    (keepsId : ∀ order, (update order).id = order.id) :
    (book.change id update).order? other =
      (book.order? other).map fun order => if order.id = id then update order else order := by
  have sameIds : (fun order => order.id == other) ∘ (fun order => if order.id = id then update order else order) =
      fun order => order.id == other := by
    funext order
    simp only [Function.comp_apply]
    split
    · rw [keepsId]
    · rfl
  rw [order?, change, List.find?_map, sameIds]
  rfl

/-- A change of one order is not seen at the others. -/
theorem order?_change_other {id other : String} (different : other ≠ id) {update : Order → Order}
    (keepsId : ∀ order, (update order).id = order.id) : (book.change id update).order? other = book.order? other := by
  rw [order?_change book id other keepsId]
  cases found : book.order? other with
  | none => rfl
  | some order =>
    have notChanged : order.id ≠ id := (order?_some found).2 ▸ different
    rw [Option.map_some, if_neg notChanged]

theorem order?_add {id : String} {order : Order} (found : book.order? id = some order) (added : Order) :
    (book.add added).order? id = some order := by
  rw [order?, add, List.find?_append, ← order?, found]
  rfl

/-- The order as the report of a fill leaves it. -/
def filledAt (price : Float) (order : Order) : Order :=
  { order with status := .filled, filledQuantity := some order.leg.quantity, filledPrice := some price }

theorem fill_eq_ok {id : String} {price : Float} {filled : PaperBook} (reported : book.fill id price = .ok filled) :
    filled = book.change id (filledAt price) := by
  unfold fill at reported
  split at reported
  · contradiction
  · exact (Except.ok.inj reported).symm

end PaperBook

namespace PaperScript

open PaperBook (Spares)

variable (script : PaperScript)

theorem afterPlacement_spares (placement : Nat) (leg : OrderLeg) (book : PaperBook) :
    book.Spares (script.afterPlacement placement leg book) := by
  unfold afterPlacement accept
  cases script.rejection? placement leg with
  | some reason => exact .refl book
  | none => exact ⟨fun numbered => numbered.add leg script.accepted, fun _ _ found _ => PaperBook.order?_add found _⟩

/-- Only an order that is found open is cancelled. -/
theorem afterCancel_spares (id : String) (book : PaperBook) : book.Spares (script.afterCancel id book) := by
  unfold afterCancel
  match refusal : script.cancelError? id book with
  | some error => exact .refl book
  | none =>
    obtain ⟨-, cancelled, isFound, isOpen⟩ := cancelError?_none.mp refusal
    refine ⟨fun numbered => numbered.change id fun _ => rfl, fun other order found settled => ?_⟩
    have different : other ≠ id := by
      rintro rfl
      rw [isFound] at found
      rw [Order.isOpen, Option.some.inj found, OrderStatus.mem_settled.mp settled] at isOpen
      contradiction
    have sameIds (order : Order) : ({ order with status := .cancelled } : Order).id = order.id := rfl
    rw [PaperBook.order?_change_other different sameIds, found]

theorem call_spares (request : Request) : (script.venue.call request).Moves Spares := by
  cases request with
  | place leg =>
    have places : (script.place leg).Moves Spares := by
      intro clock book
      refine ⟨⟨fun numbered => numbered, fun _ _ found _ => found⟩, fun clock counted => ?_⟩
      exact ⟨script.afterPlacement_spares _ leg counted, trivial⟩
    exact places.told .placed
  | cancel id =>
    have cancels : (script.cancel id).Moves Spares := fun clock book => ⟨script.afterCancel_spares id book, trivial⟩
    exact cancels.told fun _ => .cancelled
  | openOrders symbol =>
    have lists : (script.openOrders symbol).Moves Spares := fun clock book => ⟨.refl book, trivial⟩
    exact lists.told .listed

end PaperScript

/-! ### What happens at a paper venue -/

/-- A caller of the venue moves, or the fill of an order is reported. -/
inductive PaperEvent where
  | call (move : Move)
  | fill (id : String) (price : Float)

/-- The price of a reported fill, if it is the fill of the order with an id. -/
def PaperEvent.fillOf? (id : String) : PaperEvent → Option Float
  | call _ => none
  | fill other price => if other = id then some price else none

/-- What reported fills make of an order: the last one counts. -/
def Order.filledBy (order : Order) (prices : List Float) : Order :=
  prices.foldl (fun order price => PaperBook.filledAt price order) order

theorem Order.filledBy_status (order : Order) (prices : List Float) :
    (order.filledBy prices).status = if prices = [] then order.status else .filled := by
  induction prices generalizing order with
  | nil => rfl
  | cons price rest inductionHypothesis =>
    rw [filledBy, List.foldl_cons, ← filledBy, inductionHypothesis, if_neg (List.cons_ne_nil price rest)]
    split
    · rfl
    · rfl

namespace Shared

/-- What an event leaves. The fill of an unknown order is turned away. -/
def happen (script : PaperScript) (shared : Shared PaperBook) : PaperEvent → Shared PaperBook
  | .call move => shared.move script.venue move
  | .fill id price =>
      match shared.venue.fill id price with
      | .ok filled => { shared with venue := filled }
      | .error _ => shared

/-- A paper venue after some events. -/
def after (script : PaperScript) (clock : Nat) (events : List PaperEvent) : Shared PaperBook :=
  events.foldl (happen script) (fresh clock .empty)

variable {script : PaperScript} {shared : Shared PaperBook} {clock : Nat}

theorem after_snoc (events : List PaperEvent) (event : PaperEvent) :
    after script clock (events ++ [event]) = (after script clock events).happen script event := by
  rw [after, List.foldl_append]
  rfl

theorem happen_moves (moves : shared.Moves PaperBook.Spares) (event : PaperEvent) :
    (shared.happen script event).Moves PaperBook.Spares := by
  cases event with
  | call move => exact moves.move script.call_spares move
  | fill id price =>
    simp only [happen]
    split
    · exact moves
    · exact moves

theorem happen_numbered (moves : shared.Moves PaperBook.Spares) (numbered : shared.venue.Numbered) (event : PaperEvent) :
    (shared.happen script event).venue.Numbered := by
  cases event with
  | call move =>
    rcases moves.moved script.venue move with same | spares
    · rw [happen, same]
      exact numbered
    · exact spares.numbered numbered
  | fill id price =>
    simp only [happen]
    split
    · next filled reported =>
      rw [PaperBook.fill_eq_ok reported]
      exact numbered.change id fun _ => rfl
    · exact numbered

/-- A settled order is left as it is, but by a report of its fill. -/
theorem happen_order? (moves : shared.Moves PaperBook.Spares) {id : String} {order : Order}
    (found : shared.venue.order? id = some order) (settled : order.status ∈ OrderStatus.settled) (event : PaperEvent) :
    (shared.happen script event).venue.order? id = some (order.filledBy (event.fillOf? id).toList) := by
  cases event with
  | call move =>
    rcases moves.moved script.venue move with same | spares
    · rw [happen, same]
      exact found
    · exact spares.settled id order found settled
  | fill other price =>
    have sameIds (order : Order) : (PaperBook.filledAt price order).id = order.id := rfl
    by_cases same : other = id
    · subst same
      have reported : shared.venue.fill other price = .ok (shared.venue.change other (PaperBook.filledAt price)) := by
        rw [PaperBook.fill, found]
        rfl
      simp only [happen, reported, PaperEvent.fillOf?, if_pos]
      rw [PaperBook.order?_change _ _ _ sameIds, found, Option.map_some, if_pos (PaperBook.order?_some found).2]
      rfl
    · rw [PaperEvent.fillOf?, if_neg same, happen]
      split
      · next filled reported =>
        rw [PaperBook.fill_eq_ok reported, PaperBook.order?_change_other (Ne.symm same) sameIds]
        exact found
      · exact found

theorem after_sound (script : PaperScript) (clock : Nat) (events : List PaperEvent) :
    (after script clock events).Moves PaperBook.Spares ∧ (after script clock events).venue.Numbered := by
  induction events using List.reverseRecOn with
  | nil => exact ⟨fun _ member => absurd member List.not_mem_nil, rfl⟩
  | append_singleton events event inductionHypothesis =>
    obtain ⟨moves, numbered⟩ := inductionHypothesis
    rw [after_snoc]
    exact ⟨happen_moves moves event, happen_numbered moves numbered event⟩

theorem after_order? {past : List PaperEvent} {order : Order}
    (booked : order ∈ (after script clock past).venue.orders) (settled : order.status ∈ OrderStatus.settled)
    (future : List PaperEvent) :
    (after script clock (past ++ future)).venue.order? order.id =
      some (order.filledBy (future.filterMap (PaperEvent.fillOf? order.id))) := by
  induction future using List.reverseRecOn with
  | nil =>
    rw [List.append_nil]
    exact (after_sound script clock past).2.order?_eq booked
  | append_singleton future event inductionHypothesis =>
    have stillSettled : (order.filledBy (future.filterMap (PaperEvent.fillOf? order.id))).status ∈
        OrderStatus.settled := by
      rw [Order.filledBy_status]
      split
      · exact settled
      · decide
    rw [← List.append_assoc, after_snoc,
      happen_order? (after_sound script clock (past ++ future)).1 inductionHypothesis stillSettled, List.filterMap_append,
      List.filterMap_cons, List.filterMap_nil]
    cases event.fillOf? order.id <;> simp [Order.filledBy]

/-- Whatever the script, and however calls overlap or are cut off: once an order in the book is filled, cancelled or
rejected, it is what the fills that are reported for it make of it, and nothing else changes it. So its state stays
exactly if it is filled or no fill is reported for it. -/
theorem settled_order_changes_by_fills (script : PaperScript) (clock : Nat) (past future : List PaperEvent) {order : Order}
    (booked : order ∈ (after script clock past).venue.orders)
    (settled : order.status ∈ OrderStatus.settled) :
    ∃ later, (after script clock (past ++ future)).venue.order? order.id = some later ∧
      later = order.filledBy (future.filterMap (PaperEvent.fillOf? order.id)) ∧
      (later.status = order.status ↔ order.status = .filled ∨ ∀ price, .fill order.id price ∉ future) := by
  have unfilled : future.filterMap (PaperEvent.fillOf? order.id) = [] ↔ ∀ price, .fill order.id price ∉ future := by
    rw [List.filterMap_eq_nil_iff]
    constructor
    · intro silent price reported
      simpa [PaperEvent.fillOf?] using silent _ reported
    · intro silent event member
      cases event with
      | call move => rfl
      | fill id price =>
        have other : id ≠ order.id := by
          rintro rfl
          exact silent price member
        rw [PaperEvent.fillOf?, if_neg other]
  refine ⟨_, after_order? booked settled future, rfl, ?_⟩
  rw [Order.filledBy_status]
  split
  · next silent => exact ⟨fun _ => .inr (unfilled.mp silent), fun _ => rfl⟩
  · next reported =>
    constructor
    · exact fun same => .inl same.symm
    · rintro (isFilled | silent)
      · exact isFilled.symm
      · exact absurd (unfilled.mpr silent) reported

/-! ### A cancelled order that is filled -/

/-- A request that is made by a caller with an index, and all sections of its call. -/
def requested (index : Nat) (request : Request) : List PaperEvent :=
  match request with
  | .place _ => [.call (.start request), .call (.proceed index), .call (.proceed index)]
  | .cancel _ | .openOrders _ => [.call (.start request), .call (.proceed index)]

/-- A market order is placed and cancelled. -/
def placedAndCancelled : List PaperEvent :=
  requested 0 (.place (Venue.marketLeg "ACME" 5.0 .buy)) ++ requested 1 (.cancel "paper-1")

/-- The order that has been placed and cancelled. -/
def cancelledOrder : Order :=
  .ofLeg "paper-1" (Venue.marketLeg "ACME" 5.0 .buy) .cancelled

/-- A second cancellation, a second order and its fill leave the cancelled order alone, and then it is filled twice. -/
def filledAfterwards : List PaperEvent :=
  requested 2 (.cancel "paper-1") ++ requested 3 (.place (Venue.marketLeg "ACME" 3.0 .sell)) ++
    [.fill "paper-2" 99.0, .fill "paper-1" 100.0, .fill "paper-1" 101.0]

theorem cancelled_order_is_filled_later :
    cancelledOrder ∈ (after .plain 0 placedAndCancelled).venue.orders ∧
      cancelledOrder.status ∈ OrderStatus.settled ∧
      cancelledOrder.filledBy (filledAfterwards.filterMap (PaperEvent.fillOf? "paper-1")) =
        PaperBook.filledAt 101.0 cancelledOrder ∧
      ∃ later, (after .plain 0 (placedAndCancelled ++ filledAfterwards)).venue.order? cancelledOrder.id = some later ∧
        later = cancelledOrder.filledBy (filledAfterwards.filterMap (PaperEvent.fillOf? cancelledOrder.id)) ∧
        (later.status = cancelledOrder.status ↔
          cancelledOrder.status = .filled ∨ ∀ price, .fill cancelledOrder.id price ∉ filledAfterwards) := by
  have booked : cancelledOrder ∈ (after .plain 0 placedAndCancelled).venue.orders := by decide +kernel
  have settled : cancelledOrder.status ∈ OrderStatus.settled := by decide
  have twice : cancelledOrder.filledBy (filledAfterwards.filterMap (PaperEvent.fillOf? "paper-1")) =
      PaperBook.filledAt 101.0 cancelledOrder := by decide +kernel
  exact ⟨booked, settled, twice,
    settled_order_changes_by_fills .plain 0 placedAndCancelled filledAfterwards booked settled⟩

/-- Once an order in the book is filled, cancelled or rejected, its state stays. -/
def StaysSettled (script : PaperScript) : Prop :=
  ∀ (clock : Nat) (past future : List PaperEvent) (order later : Order),
    order ∈ (after script clock past).venue.orders → order.status ∈ OrderStatus.settled →
      (after script clock (past ++ future)).venue.order? order.id = some later → later.status = order.status

/-- A cancelled order comes back as a filled one, which is live, and so does a rejected one where the venue turns down
what it accepts. -/
theorem settled_orders_come_back : ¬StaysSettled .plain ∧ ¬StaysSettled { PaperScript.plain with accepted := .rejected } ∧
    ((after .plain 0 (placedAndCancelled ++ [.fill "paper-1" 100.0])).venue.order? "paper-1").any Order.isLive = true := by
  refine ⟨?_, ?_, by decide +kernel⟩
  · intro always
    have same := always 0 placedAndCancelled [.fill "paper-1" 100.0] cancelledOrder
      (PaperBook.filledAt 100.0 cancelledOrder) (by decide +kernel) (by decide) (by decide +kernel)
    contradiction
  · intro always
    have same := always 0 (requested 0 (.place (Venue.marketLeg "ACME" 5.0 .buy))) [.fill "paper-1" 100.0]
      { cancelledOrder with status := .rejected } (PaperBook.filledAt 100.0 cancelledOrder) (by decide +kernel)
      (by decide) (by decide +kernel)
    contradiction

end Shared

end TradingStrategy

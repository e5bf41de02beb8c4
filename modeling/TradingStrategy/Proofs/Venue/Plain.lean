import TradingStrategy.Proofs.Engine.Renaming
import TradingStrategy.Proofs.Order.Legs
import TradingStrategy.Proofs.Order.Prices
import TradingStrategy.Proofs.Venue.Caching
import TradingStrategy.Proofs.Venue.Rollback

/-!
The plain paper venue next to a dry run.

Owns:
- `PaperScript.IsUnhindered`: that such a venue takes every bracket, also that of an armed strategy, and cancels all
  open entries, with the orders and the report that they give;
- the plain paper venue as such a venue;
- the orders and the reports of a dry run, which leave the world alone;
- that the first are the second under other names for the orders.

The venue may have any orders in its book. Those of a dry run are named after their plan and their leg, so the same
names come again with the next submission of the plan.
-/

namespace TradingStrategy

/-! ### New orders -/

/-- An order that a venue has just made of its leg. -/
def Order.IsNew (status : OrderStatus) (order : Order) : Prop :=
  order = .ofLeg order.id order.leg status

/-- New orders for the same legs differ in their names at most. -/
theorem Order.renamed_eq {rename : String → String} {status : OrderStatus} {orders others : List Order}
    (new : ∀ order ∈ orders, order.IsNew status) (otherNew : ∀ order ∈ others, order.IsNew status)
    (legs : orders.map Order.leg = others.map Order.leg)
    (names : (orders.map Order.id).map rename = others.map Order.id) : orders.map (Order.renamed rename) = others := by
  induction orders generalizing others with
  | nil => exact (List.map_eq_nil_iff.mp legs.symm).symm
  | cons first rest inductionHypothesis =>
    match others with
    | [] => exact absurd legs (by simp)
    | other :: more =>
      obtain ⟨sameLeg, sameLegs⟩ := List.cons.inj legs
      obtain ⟨name, names⟩ := List.cons.inj names
      have tail := inductionHypothesis (fun order member => new order (List.mem_cons_of_mem _ member))
        (fun order member => otherNew order (List.mem_cons_of_mem _ member)) sameLegs names
      have head : first.renamed rename = other := by
        rw [otherNew other List.mem_cons_self, new first List.mem_cons_self, ← name, ← sameLeg]
        rfl
      rw [List.map_cons, head, tail]

theorem PaperScript.ordersOf_new (script : PaperScript) (count : Nat) (legs : List OrderLeg) :
    ∀ order ∈ script.ordersOf count legs, order.IsNew script.accepted := by
  induction legs generalizing count with
  | nil => exact fun _ member => absurd member List.not_mem_nil
  | cons leg rest inductionHypothesis =>
    intro order member
    rcases List.mem_cons.mp member with rfl | member
    · rfl
    · exact inductionHypothesis (count + 1) order member

theorem Venue.dryOrders_new (position : Nat) (legs : List OrderLeg) :
    ∀ order ∈ dryOrders position legs, order.IsNew .working := by
  induction legs generalizing position with
  | nil => exact fun _ member => absurd member List.not_mem_nil
  | cons leg rest inductionHypothesis =>
    intro order member
    rcases List.mem_cons.mp member with rfl | member
    · rfl
    · exact inductionHypothesis (position + 1) order member

/-- Later orders come to the book, and those in it keep their names. -/
structure PaperBook.Extends (rename : String → String) (book : PaperBook) (extended : String → String)
    (later : PaperBook) : Prop where
  ids : ∀ id ∈ book.orders.map Order.id, id ∈ later.orders.map Order.id
  names : ∀ id ∈ book.orders.map Order.id, extended id = rename id

theorem PaperBook.Extends.refl (rename : String → String) (book : PaperBook) : Extends rename book rename book :=
  ⟨fun _ member => member, fun _ _ => rfl⟩

/-- The orders of legs are numbered on from those before them. -/
theorem PaperBook.Numbered.ordersOf {book later : PaperBook} (numbered : book.Numbered) {script : PaperScript}
    {legs : List OrderLeg} (added : later.orders = book.orders ++ script.ordersOf book.orders.length legs) :
    later.Numbered := by
  induction legs generalizing book with
  | nil =>
    rw [PaperScript.ordersOf, List.append_nil] at added
    exact numbered.ofOrders added
  | cons leg rest inductionHypothesis =>
    apply inductionHypothesis (numbered.add leg script.accepted)
    rw [added, PaperBook.add, List.length_append, List.append_assoc]
    rfl

/-- New orders can be given any names of the same number, and those in the book keep theirs. -/
theorem PaperBook.exists_extends (rename : String → String) {book later : PaperBook} {orders : List Order}
    (numbered : later.Numbered) (added : later.orders = book.orders ++ orders) {names : List String}
    (sameLength : orders.length = names.length) :
    ∃ extended, Extends rename book extended later ∧ (orders.map Order.id).map extended = names := by
  have distinct := numbered.nodup
  rw [added, List.map_append] at distinct
  obtain ⟨_, fresh, disjoint⟩ := List.nodup_append.mp distinct
  rw [← List.length_map Order.id] at sameLength
  obtain ⟨extended, elsewhere, given⟩ := exists_renaming rename fresh sameLength
  refine ⟨extended, ⟨?ids, ?names⟩, given⟩
  case ids =>
    intro id member
    rw [added, List.map_append]
    exact List.mem_append_left _ member
  case names =>
    intro id member
    exact elsewhere id fun new => disjoint id member id new rfl

/-! ### An unhindered paper venue -/

namespace PaperScript

/-- Nothing is rejected, fails or takes time. -/
structure IsUnhindered (script : PaperScript) : Prop extends script.IsPrompt where
  accepts : script.rejectedPlacements = []
  letsCancel : script.failingCancels = false

namespace IsUnhindered

variable {script : PaperScript} (unhindered : script.IsUnhindered) {environment : Environment}
include unhindered

theorem through (environment : Environment) : script.Cancels environment := by
  refine ⟨unhindered.letsCancel, ?_⟩
  rw [unhindered.latency, unhindered.cancels]
  exact Nat.zero_le _

/-- A leg with a quantity above zero is accepted at once. -/
theorem placeOne (environment : Environment) {leg : OrderLeg} (positive : isPositive leg.quantity = true)
    (world : World PaperBook) :
    (script.venue.placeOne environment leg world).1 = .ok (.ofLeg world.venue.nextId leg script.accepted) := by
  have accepted : script.rejection? (world.venue.placements + 1) leg = none := by
    simp only [rejection?, unhindered.accepts, List.not_mem_nil, if_false, positive, Bool.not_true, Bool.false_eq_true]
  have arrives : script.latency ≤ environment.timeout := by
    rw [unhindered.latency]
    exact Nat.zero_le _
  have ends : script.latency + script.placementPause (world.venue.placements + 1) ≤ environment.timeout := by
    rw [unhindered.latency, unhindered.placements]
    exact Nat.zero_le _
  simp only [placeOne_eq, arrives, ends, if_true, accept, accepted]
  rfl

theorem placeAll (environment : Environment) {legs : List OrderLeg}
    (positive : ∀ leg ∈ legs, isPositive leg.quantity = true) (accepted : List Order) (world : World PaperBook) :
    ∃ orders, (script.venue.placeAll environment accepted legs world).1 = .ok orders := by
  induction legs generalizing accepted world with
  | nil => exact ⟨_, rfl⟩
  | cons leg rest inductionHypothesis =>
    have placed := unhindered.placeOne environment (positive leg List.mem_cons_self) world
    rw [Venue.placeAll]
    generalize script.venue.placeOne environment leg world = ended at placed
    obtain ⟨answer, after⟩ := ended
    obtain rfl : answer = _ := placed
    exact inductionHypothesis (fun other member => positive other (List.mem_cons_of_mem leg member)) _ after

/-- A bracket whose legs have quantities above zero is placed as a whole. -/
theorem submit (live : environment.dryRun = false) {plan : ResolvedPlan} {legs : List OrderLeg}
    (bracketed : plan.bracket = .ok legs) (positive : ∀ leg ∈ legs, isPositive leg.quantity = true)
    {world : World PaperBook} (numbered : world.venue.Numbered) :
    ∃ after, script.venue.submit environment plan world =
        (.ok (script.ordersOf world.venue.orders.length legs), after) ∧
      after.venue.orders = world.venue.orders ++ script.ordersOf world.venue.orders.length legs := by
  obtain ⟨orders, answered⟩ := unhindered.placeAll environment positive [] world
  have submitted : (script.venue.submit environment plan world).1 = .ok orders := by
    simp only [Venue.submit, bracketed, live, Bool.false_eq_true, if_false, answered]
  rcases submit_places live plan world numbered with ⟨fault, rejected⟩ | ⟨others, same, places⟩
  · rw [rejected] at submitted
    contradiction
  · obtain rfl : legs = others := Except.ok.inj (bracketed.symm.trans same)
    generalize script.venue.submit environment plan world = ended at submitted places ⊢
    obtain ⟨answer, after⟩ := ended
    obtain rfl : answer = .ok orders := submitted
    cases places with
    | whole _ added => exact ⟨after, rfl, added⟩

/-- The frozen plan of an armed strategy has no bracket, or the venue takes all of it. -/
theorem submission (live : environment.dryRun = false) {blueprint : Blueprint}
    (parts : ∀ target ∈ blueprint.plan.targets, IsPart target.ratio) {state : EngineState}
    (holds : state.Holds blueprint) (armed : state.stage = .armed) {plan : ResolvedPlan}
    (frozen : state.frozen = some plan) {world : World PaperBook} (numbered : world.venue.Numbered) :
    (∃ fault, plan.bracket = .error fault) ∨
      ∃ legs after, plan.bracket = .ok legs ∧
        script.venue.submit environment plan world = (.ok (script.ordersOf world.venue.orders.length legs), after) ∧
        after.venue.orders = world.venue.orders ++ script.ordersOf world.venue.orders.length legs := by
  match bracketed : plan.bracket with
  | .error fault => exact .inl ⟨fault, rfl⟩
  | .ok legs =>
    obtain ⟨found, same, history, resolved⟩ := holds.frozen (by simp [armed])
    obtain rfl : plan = found := Option.some.inj (frozen.symm.trans same)
    have positive := ResolvedPlan.bracket_positive bracketed (OrderPlan.resolve_parts resolved parts)
    obtain ⟨after, submitted, added⟩ := unhindered.submit live bracketed positive numbered
    exact .inr ⟨legs, after, rfl, submitted, added⟩

theorem queryOpen (live : environment.dryRun = false) (symbol : String) (world : World PaperBook) :
    script.venue.queryOpen environment symbol world = (.ok (world.venue.openOrders symbol), world) := by
  rw [queryOpen_eq _ _ live, unhindered.latency]
  exact if_pos (Nat.zero_le _)

end IsUnhindered

/-! ### The plain paper venue -/

variable {environment : Environment}

theorem plain_unhindered : PaperScript.plain.IsUnhindered where
  latency := rfl
  placements _ := rfl
  cancels := rfl
  accepts := rfl
  letsCancel := rfl

theorem plain_cancels (environment : Environment) : PaperScript.plain.Cancels environment :=
  plain_unhindered.through environment

theorem plain_queryOpen (live : environment.dryRun = false) (symbol : String) (world : World PaperBook) :
    PaperScript.plain.venue.queryOpen environment symbol world = (.ok (world.venue.openOrders symbol), world) :=
  plain_unhindered.queryOpen live symbol world

end PaperScript

/-! ### A dry run -/

namespace Venue

variable {σ : Type} {venue : Venue σ} {environment : Environment}

theorem dryOrders_ids {planId : String} {legs : List OrderLeg} (carried : ∀ leg ∈ legs, leg.planId = planId)
    (position : Nat) :
    (dryOrders position legs).map Order.id =
      (List.range' position legs.length).map fun index => "dry-" ++ planId ++ "-" ++ toString index := by
  induction legs generalizing position with
  | nil => rfl
  | cons leg rest inductionHypothesis =>
    have others := fun other member => carried other (List.mem_cons_of_mem leg member)
    have tail := inductionHypothesis others (position + 1)
    rw [dryOrders, List.map_cons, tail, List.length_cons, List.range'_succ, List.map_cons,
      ← carried leg List.mem_cons_self]
    rfl

/-- The made-up orders for a bracket have names of their own. -/
theorem dryOrders_distinct {plan : ResolvedPlan} {legs : List OrderLeg} (bracketed : plan.bracket = .ok legs) :
    ((dryOrders 1 legs).map Order.id).Nodup := by
  rw [dryOrders_ids (fun leg member => ((ResolvedPlan.bracket_carries bracketed).2 leg member).1)]
  exact List.Nodup.map (fun _ _ same => counted_injective same) (List.nodup_range' ..)

theorem dry_submit (dry : environment.dryRun = true) {plan : ResolvedPlan} {legs : List OrderLeg}
    (bracketed : plan.bracket = .ok legs) (world : World σ) :
    venue.submit environment plan world = (.ok (dryOrders 1 legs), world) := by
  simp only [submit, bracketed, dry, if_true]

theorem submit_faulty {plan : ResolvedPlan} {fault : PlanFault} (faulty : plan.bracket = .error fault)
    (world : World σ) : venue.submit environment plan world = (.error (.rejected (.plan fault)), world) := by
  simp only [submit, faulty]

/-! ### The same orders under other names -/

variable {rename : String → String}

theorem openEntries_renamed (symbol : String) (orders : List Order) :
    openEntries symbol (orders.map (Order.renamed rename)) = (openEntries symbol orders).map (Order.renamed rename) :=
  List.filter_map ..

/-- In a dry run all open entries count as cancelled, under the names that they have there. -/
theorem dry_cancelEntries (dry : environment.dryRun = true) (symbol : String) (orders : List Order) (world : World σ) :
    venue.cancelEntries environment symbol (orders.map (Order.renamed rename)) world =
      (CancelReport.renamed rename ⟨(openEntries symbol orders).map Order.id, []⟩, world) := by
  simp only [cancelEntries, dry, if_true, openEntries_renamed, Order.renamed_ids, CancelReport.renamed, List.map_nil]

theorem any_isLive_renamed (orders : List Order) :
    (orders.map (Order.renamed rename)).any Order.isLive = orders.any Order.isLive :=
  List.any_map ..

end Venue

end TradingStrategy

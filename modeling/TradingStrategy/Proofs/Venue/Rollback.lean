import TradingStrategy.Proofs.Venue.Paper

/-!
Submissions to the paper venue and what is left of them.

Owns:
- what a run of cancellations leaves of a book, and what it reports;
- what placing a bracket leg by leg comes to: the whole bracket, nothing, or a report of every order that was added;
- `submission_report_matches_book`: the report of a submission agrees with the book that it leaves.
-/

namespace TradingStrategy

namespace PaperScript

variable {script : PaperScript} {environment : Environment}

/-- The orders that a book of `count` orders makes of legs. -/
def ordersOf (script : PaperScript) (count : Nat) : List OrderLeg → List Order
  | [] => []
  | leg :: rest => .ofLeg (PaperBook.orderId (count + 1)) leg script.accepted :: script.ordersOf (count + 1) rest

theorem ordersOf_leg (count : Nat) (legs : List OrderLeg) : (script.ordersOf count legs).map Order.leg = legs := by
  induction legs generalizing count with
  | nil => rfl
  | cons leg rest inductionHypothesis => rw [ordersOf, List.map_cons, inductionHypothesis]; rfl

theorem ordersOf_length (count : Nat) (legs : List OrderLeg) : (script.ordersOf count legs).length = legs.length := by
  rw [← List.length_map Order.leg, ordersOf_leg]

theorem ordersOf_status (count : Nat) (legs : List OrderLeg) :
    ∀ order ∈ script.ordersOf count legs, order.status = script.accepted := by
  induction legs generalizing count with
  | nil => simp [ordersOf]
  | cons leg rest inductionHypothesis =>
    intro order member
    rcases List.mem_cons.mp member with rfl | member
    · rfl
    · exact inductionHypothesis (count + 1) order member

theorem ordersOf_snoc (script : PaperScript) (count : Nat) (legs : List OrderLeg) (leg : OrderLeg) :
    script.ordersOf count (legs ++ [leg]) =
      script.ordersOf count legs ++ [.ofLeg (PaperBook.orderId (count + legs.length + 1)) leg script.accepted] := by
  induction legs generalizing count with
  | nil => rfl
  | cons first rest inductionHypothesis =>
    rw [List.cons_append, ordersOf, ordersOf, inductionHypothesis, List.cons_append, List.length_cons]
    simp only [Nat.add_comm, Nat.add_left_comm]

/-! ### Cancellations -/

theorem withdrawn_cons (id : String) (ids : List String) :
    Order.withdrawn ids ∘ Order.withdrawn [id] = Order.withdrawn (id :: ids) := by
  funext order
  simp only [Function.comp_apply, Order.withdrawn, List.mem_cons]
  by_cases first : order.id = id
  · simp [first]
  · simp [first]

theorem withdrawn_nil : Order.withdrawn [] = id := by
  funext order
  simp [Order.withdrawn]

/-- Orders whose ids are not among those of the cancelled ones stay as they are. -/
theorem map_withdrawn_of_fresh {ids : List String} {orders : List Order} (fresh : ∀ order ∈ orders, order.id ∉ ids) :
    orders.map (Order.withdrawn ids) = orders := by
  have same : ∀ order ∈ orders, order.withdrawn ids = id order := fun order member => if_neg (fresh order member)
  rw [List.map_congr_left same, List.map_id]

theorem order?_withdrawn (book : PaperBook) (ids : List String) (id : String) :
    PaperBook.order? { book with orders := book.orders.map (Order.withdrawn ids) } id =
      (book.order? id).map (Order.withdrawn ids) := by
  unfold PaperBook.order?
  rw [List.find?_map]
  simp only [Function.comp_def, Order.withdrawn_id]

/-- What a run of cancellations leaves and reports. -/
structure CancelsOrders (script : PaperScript) (environment : Environment) (ids : List String) (before : PaperBook)
    (report : CancelReport) (after : PaperBook) : Prop where
  orders : after.orders = before.orders.map (Order.withdrawn report.cancelled)
  parted : (report.cancelled ++ report.failed.map CancelFailure.id).Perm ids
  cancelled : report.cancelled.Sublist ids
  failed : (report.failed.map CancelFailure.id).Sublist ids
  /-- Where cancellations get through, distinct open orders are all cancelled. -/
  complete : script.Cancels environment → ids.Nodup →
    (∀ id ∈ ids, ∃ order, before.order? id = some order ∧ order.isOpen = true) → report.cancelled = ids
  /-- Where they do not, nothing is cancelled. -/
  hopeless : ¬script.Cancels environment → report.cancelled = []

theorem cancelAll_cancels (script : PaperScript) (environment : Environment) (ids : List String)
    (world : World PaperBook) :
    script.CancelsOrders environment ids world.venue (script.venue.cancelAll environment ids world).1
      (script.venue.cancelAll environment ids world).2.venue := by
  induction ids generalizing world with
  | nil =>
    refine ⟨?_, .refl _, .refl _, .refl _, fun _ _ _ => rfl, fun _ => rfl⟩
    rw [Venue.cancelAll, withdrawn_nil, List.map_id]
  | cons id rest inductionHypothesis =>
    rcases script.cancelOne_cases environment id world with
      ⟨after, answered, through, marked⟩ | ⟨error, after, answered, same, excuse⟩
    · have tail := inductionHypothesis after
      simp only [Venue.cancelAll, answered]
      refine ⟨?_, tail.parted.cons id, tail.cancelled.cons_cons id, tail.failed.cons id, ?_,
        fun never => absurd through never⟩
      · rw [tail.orders, marked, List.map_map, withdrawn_cons]
      · intro through distinct isOpen
        obtain ⟨fresh, distinct⟩ := List.nodup_cons.mp distinct
        rw [tail.complete through distinct]
        intro other member
        obtain ⟨order, found, orderOpen⟩ := isOpen other (List.mem_cons_of_mem _ member)
        have otherId : order.id = other := (PaperBook.order?_some found).2
        have untouched : order.withdrawn [id] = order :=
          if_neg (by rw [otherId, List.mem_singleton]; rintro rfl; exact fresh member)
        refine ⟨order, ?_, orderOpen⟩
        rw [marked, order?_withdrawn, found, Option.map_some, untouched]
    · have tail := inductionHypothesis after
      simp only [Venue.cancelAll, answered]
      refine ⟨by rw [tail.orders, same], List.perm_middle.trans (tail.parted.cons id), tail.cancelled.cons id,
        tail.failed.cons_cons id, ?_, tail.hopeless⟩
      intro through distinct isOpen
      exact absurd ⟨through, isOpen id (List.mem_cons_self)⟩ excuse

/-- Where cancellations get through, the open entries among orders of a book are all cancelled. -/
theorem cancelEntries_complete (live : environment.dryRun = false) (through : script.Cancels environment)
    (symbol : String) {orders : List Order} {world : World PaperBook} (numbered : world.venue.Numbered)
    (part : orders.Sublist world.venue.orders) :
    ∃ after, script.venue.cancelEntries environment symbol orders world =
        (⟨(Venue.openEntries symbol orders).map Order.id, []⟩, after) ∧
      after.venue.orders =
        world.venue.orders.map (Order.withdrawn ((Venue.openEntries symbol orders).map Order.id)) := by
  have part : (Venue.openEntries symbol orders).Sublist world.venue.orders := List.filter_sublist.trans part
  rw [Venue.cancelEntries, if_neg (by simp [live])]
  have cancels := cancelAll_cancels script environment ((Venue.openEntries symbol orders).map Order.id) world
  generalize script.venue.cancelAll environment _ world = ended at cancels ⊢
  obtain ⟨⟨cancelled, failed⟩, after⟩ := ended
  have all := cancels.complete through (numbered.nodup.sublist (part.map _)) (by
    intro id among
    obtain ⟨order, member, rfl⟩ := List.mem_map.mp among
    have isOpenEntry := (List.mem_filter.mp member).2
    simp only [Bool.and_eq_true] at isOpenEntry
    exact ⟨order, numbered.order?_eq (part.subset member), isOpenEntry.2⟩)
  obtain rfl : cancelled = _ := all
  have noneFailed : failed = [] := by
    have count := cancels.parted.length_eq
    simp only [List.length_append, List.length_map] at count
    exact List.length_eq_zero_iff.mp (by omega)
  rw [noneFailed]
  exact ⟨after, rfl, cancels.orders⟩

/-! ### Placements -/

/-- The ends of placing legs behind orders of the same call, over a book whose earlier orders are `base`. -/
inductive Places (script : PaperScript) (environment : Environment) (base : List Order) (legs : List OrderLeg) :
    Except VenueError (List Order) → PaperBook → Prop where
  /-- Every leg has its order. -/
  | whole (after : PaperBook) (orders : after.orders = base ++ script.ordersOf base.length legs) :
      Places script environment base legs (.ok (script.ordersOf base.length legs)) after
  /-- The first leg failed. -/
  | nothing (error : VenueError) (after : PaperBook) (direct : error.IsDirect) (orders : after.orders = base) :
      Places script environment base legs (.error error) after
  /-- A later leg failed, and the orders before it are cancelled as far as cancellations get through. -/
  | takenBack (sent : List OrderLeg) (cause : VenueError) (before after : PaperBook) (report : CancelReport)
      (isPrefix : sent <+: legs) (nonempty : sent ≠ []) (direct : cause.IsDirect) (numbered : before.Numbered)
      (added : before.orders = base ++ script.ordersOf base.length sent)
      (cancels : script.CancelsOrders environment ((script.ordersOf base.length sent).map Order.id).reverse before report
        after) :
      Places script environment base legs
        (.error (.rolledBack cause report.cancelled (report.failed.map CancelFailure.id))) after

theorem placeAll_places {base : List Order} (done legs : List OrderLeg) (world : World PaperBook)
    (numbered : world.venue.Numbered) (added : world.venue.orders = base ++ script.ordersOf base.length done) :
    Places script environment base (done ++ legs)
      (script.venue.placeAll environment (script.ordersOf base.length done).reverse legs world).1
      (script.venue.placeAll environment (script.ordersOf base.length done).reverse legs world).2.venue := by
  induction legs generalizing done world with
  | nil =>
    rw [Venue.placeAll, List.reverse_reverse, List.append_nil]
    exact .whole world.venue added
  | cons leg rest inductionHypothesis =>
    have nextId : world.venue.nextId = PaperBook.orderId (base.length + done.length + 1) := by
      rw [PaperBook.nextId, added, List.length_append, ordersOf_length]
    rcases script.placeOne_cases environment leg world with
      ⟨after, answered, longer⟩ | ⟨error, after, answered, direct, same⟩
    · have grown := ordersOf_snoc script base.length done leg
      rw [nextId] at answered longer
      have numbered : after.venue.Numbered :=
        (numbered.add leg script.accepted).ofOrders (by rw [longer, ← nextId]; rfl)
      have rest := inductionHypothesis (done ++ [leg]) after numbered
        (by rw [longer, added, grown, List.append_assoc])
      rw [grown, List.reverse_append, List.append_assoc] at rest
      simp only [Venue.placeAll, answered]
      exact rest
    · simp only [Venue.placeAll, answered, Venue.rollBack]
      match done with
      | [] =>
        exact .nothing error after.venue direct (by rw [same, added]; exact List.append_nil base)
      | first :: more =>
        have nonempty : (script.ordersOf base.length (first :: more)).reverse.isEmpty = false := by
          simp [ordersOf]
        rw [if_neg (by simp [nonempty])]
        have cancels := cancelAll_cancels script environment
          ((script.ordersOf base.length (first :: more)).reverse.map Order.id) after
        rw [List.map_reverse] at cancels ⊢
        exact .takenBack (first :: more) error after.venue _ _ (List.prefix_append _ _) (by simp) direct
          (numbered.ofOrders same) (same.trans added) cancels

/-! ### Submissions -/

/-- A live submission places its bracket, or it fails because the plan has none. -/
theorem submit_places (live : environment.dryRun = false) (plan : ResolvedPlan) (world : World PaperBook)
    (numbered : world.venue.Numbered) :
    (∃ fault, script.venue.submit environment plan world = (.error (.rejected (.plan fault)), world)) ∨
      ∃ legs, plan.bracket = .ok legs ∧
        Places script environment world.venue.orders legs (script.venue.submit environment plan world).1
          (script.venue.submit environment plan world).2.venue := by
  unfold Venue.submit
  match bracketed : plan.bracket with
  | .error fault => exact .inl ⟨fault, rfl⟩
  | .ok legs =>
    refine .inr ⟨legs, rfl, ?_⟩
    simp only [live, Bool.false_eq_true, if_false]
    exact placeAll_places [] legs world numbered (List.append_nil _).symm

/-- A submission was taken back. The orders that it added are reported, each once: some are cancelled in the book, the
others are as they were accepted, and all other orders are unchanged. -/
structure TakesBack (script : PaperScript) (plan : ResolvedPlan) (before : PaperBook) (cancelled failed : List String)
    (after : PaperBook) (added : List Order) : Prop where
  legs : ∃ legs, plan.bracket = .ok legs ∧ added.map Order.leg <+: legs
  someAdded : added ≠ []
  accepted : ∀ order ∈ added, order.status = script.accepted
  distinct : ((before.orders ++ added).map Order.id).Nodup
  parted : (cancelled ++ failed).Perm (added.map Order.id)
  cancelledNewestFirst : cancelled.Sublist (added.map Order.id).reverse
  failedNewestFirst : failed.Sublist (added.map Order.id).reverse
  orders : after.orders = before.orders ++ added.map (Order.withdrawn cancelled)
  withdrawn : ∀ id ∈ cancelled, ∃ order, after.order? id = some order ∧ order.status = .cancelled
  left : ∀ id ∈ failed, ∃ order, after.order? id = some order ∧ order.status = script.accepted

/-- The report of a submission agrees with the book that it leaves. -/
def Settles (script : PaperScript) (plan : ResolvedPlan) (before : PaperBook) :
    Except VenueError (List Order) → PaperBook → Prop
  | .ok orders, after =>
      after.orders = before.orders ++ orders ∧ ∃ legs, plan.bracket = .ok legs ∧ orders.map Order.leg = legs
  | .error (.rolledBack _ cancelled failed), after => ∃ added, script.TakesBack plan before cancelled failed after added
  | .error _, after => after.orders = before.orders

theorem settles_of_direct {plan : ResolvedPlan} {before after : PaperBook} {error : VenueError}
    (direct : error.IsDirect) (same : after.orders = before.orders) : script.Settles plan before (.error error) after := by
  cases error with
  | rolledBack cause cancelled failed => exact direct.elim
  | rejected | timedOut | transport => exact same

/-- Cancellations of new orders leave the earlier ones as they are, and their report parts the new ones. -/
theorem CancelsOrders.takesBack {plan : ResolvedPlan} {book before after : PaperBook} {report : CancelReport}
    {legs sent : List OrderLeg} (bracketed : plan.bracket = .ok legs) (isPrefix : sent <+: legs) (nonempty : sent ≠ [])
    (numbered : before.Numbered) (added : before.orders = book.orders ++ script.ordersOf book.orders.length sent)
    (cancels : script.CancelsOrders environment ((script.ordersOf book.orders.length sent).map Order.id).reverse before
      report after) :
    script.TakesBack plan book report.cancelled (report.failed.map CancelFailure.id) after
      (script.ordersOf book.orders.length sent) := by
  have distinct := numbered.nodup
  rw [added, List.map_append] at distinct
  have parted := cancels.parted.trans (List.reverse_perm _)
  have newId {id : String} (member : id ∈ report.cancelled ++ report.failed.map CancelFailure.id) :
      ∃ order ∈ script.ordersOf book.orders.length sent, order.id = id :=
    List.mem_map.mp (parted.mem_iff.mp member)
  -- What the book shows under the id of a new order.
  have shown {order : Order} (member : order ∈ script.ordersOf book.orders.length sent) :
      after.order? order.id = some (order.withdrawn report.cancelled) := by
    have found := numbered.order?_eq (added ▸ List.mem_append_right _ member)
    have marked := order?_withdrawn before report.cancelled order.id
    rw [found] at marked
    rw [← Option.map_some, ← marked, PaperBook.order?, PaperBook.order?, cancels.orders]
  refine {
    legs := ⟨legs, bracketed, by rw [ordersOf_leg]; exact isPrefix⟩
    someAdded := ?someAdded
    accepted := ordersOf_status _ _
    distinct := by rw [List.map_append]; exact distinct
    parted := parted
    cancelledNewestFirst := cancels.cancelled
    failedNewestFirst := cancels.failed
    orders := ?orders
    withdrawn := ?withdrawn
    left := ?left }
  case someAdded =>
    apply List.length_pos_iff.mp
    rw [ordersOf_length]
    exact List.length_pos_iff.mpr nonempty
  case orders =>
    rw [cancels.orders, added, List.map_append, map_withdrawn_of_fresh]
    intro order member cancelled
    obtain ⟨new, newMember, sameId⟩ := newId (List.mem_append_left _ cancelled)
    have apart := (List.nodup_append.mp distinct).2.2
    exact apart order.id (List.mem_map_of_mem member) new.id (List.mem_map_of_mem newMember) sameId.symm
  case withdrawn =>
    intro id cancelled
    obtain ⟨order, member, rfl⟩ := newId (List.mem_append_left _ cancelled)
    exact ⟨_, shown member, by rw [Order.withdrawn, if_pos cancelled]⟩
  case left =>
    intro id failed
    obtain ⟨order, member, rfl⟩ := newId (List.mem_append_right _ failed)
    have once := parted.nodup_iff.mpr (List.nodup_append.mp distinct).2.1
    have kept : order.id ∉ report.cancelled := fun cancelled =>
      (List.nodup_append.mp once).2.2 order.id cancelled order.id failed rfl
    exact ⟨_, shown member, by rw [Order.withdrawn, if_neg kept]; exact ordersOf_status _ _ order member⟩

end PaperScript

/-- Over every reachable book of the paper venue, with every script and every time-out, the report of a live submission
agrees with the book that it leaves. -/
theorem submission_report_matches_book (script : PaperScript) (environment : Environment) (world : World PaperBook)
    (reachable : script.Reachable world.venue) (live : environment.dryRun = false) (plan : ResolvedPlan) :
    script.Settles plan world.venue (script.venue.submit environment plan world).1
      (script.venue.submit environment plan world).2.venue := by
  rcases PaperScript.submit_places live plan world reachable.numbered with ⟨fault, rejected⟩ | ⟨legs, bracketed, places⟩
  · rw [rejected]
    exact PaperScript.settles_of_direct trivial rfl
  · generalize script.venue.submit environment plan world = ended at places
    obtain ⟨result, after⟩ := ended
    dsimp only at places ⊢
    cases places with
    | whole _ orders => exact ⟨orders, legs, bracketed, PaperScript.ordersOf_leg _ _⟩
    | nothing error _ direct orders => exact PaperScript.settles_of_direct direct orders
    | takenBack sent cause before _ report isPrefix nonempty direct numbered added cancels =>
      exact ⟨_, cancels.takesBack bracketed isPrefix nonempty numbered added⟩

/-! ### A submission whose last leg comes too late -/

/-- The fourth placement takes half a minute. -/
def slowFourth : PaperScript :=
  { PaperScript.plain with slowPlacements := [(4, 30000)] }

/-- A book with one order, which is cancelled. -/
def usedBook : PaperBook :=
  slowFourth.afterCancel "paper-1" (slowFourth.afterPlacement 1 (Venue.marketLeg "ACME" 5 .buy) PaperBook.empty.count)

/-- A plan with one target. -/
def oneTargetPlan : ResolvedPlan :=
  ⟨"primary", "ACME", .buy, 100, 101, 10, 95, [⟨110, 1⟩]⟩

set_option maxRecDepth 10000 in
/-- The target leg times out, and the entry and the stop are cancelled again, the stop first. -/
theorem late_target_report_matches_book :
    slowFourth.Reachable usedBook ∧
      (slowFourth.venue.submit ⟨false, 1000⟩ oneTargetPlan ⟨0, usedBook⟩).1 =
        .error (.rolledBack (.timedOut .place 1000) ["paper-3", "paper-2"] []) ∧
      slowFourth.Settles oneTargetPlan usedBook (slowFourth.venue.submit ⟨false, 1000⟩ oneTargetPlan ⟨0, usedBook⟩).1
        (slowFourth.venue.submit ⟨false, 1000⟩ oneTargetPlan ⟨0, usedBook⟩).2.venue := by
  have reachable : slowFourth.Reachable usedBook := .cancel _ _ (.place _ _ _ (.count _ .empty))
  exact ⟨reachable, by decide +kernel,
    submission_report_matches_book slowFourth ⟨false, 1000⟩ ⟨0, usedBook⟩ reachable rfl oneTargetPlan⟩

end TradingStrategy

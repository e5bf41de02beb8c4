import TradingStrategy.Proofs.Venue.Plain

/-!
The orders of one caller in a book that callers share.

Owns:
- `PaperBook.Mirrors`: a shared book has the orders of a book of one's own, under other names and with others in
  between;
- that such a book shows the same orders, that cancellations keep it so, and that new orders keep it so under names that
  are extended;
- `PaperBook.Touches`: all that a caller changes of a shared book, which leaves the orders of the other callers as they
  are.

No order is filled here. A fill is no request, and it names its order by the id that the shared book gave it.
-/

namespace TradingStrategy

namespace PaperBook

def ids (book : PaperBook) : List String :=
  book.orders.map Order.id

/-- The other names of the orders of a book. -/
def names (rename : String → String) (book : PaperBook) : List String :=
  book.ids.map rename

/-- The orders with some ids, as far as they are among the given ones. -/
def among (ids : List String) (orders : List Order) : List Order :=
  orders.filter fun order => ids.contains order.id

theorem among_congr {ids others : List String} {orders : List Order}
    (agree : ∀ order ∈ orders, order.id ∈ ids ↔ order.id ∈ others) : among ids orders = among others orders := by
  apply List.filter_congr
  intro order member
  rw [Bool.eq_iff_iff, List.contains_iff_mem, List.contains_iff_mem]
  exact agree order member

theorem among_eq_self {ids : List String} {orders : List Order} (inside : ∀ order ∈ orders, order.id ∈ ids) :
    among ids orders = orders :=
  List.filter_eq_self.mpr fun order member => List.contains_iff_mem.mpr (inside order member)

theorem among_eq_nil {ids : List String} {orders : List Order} (outside : ∀ order ∈ orders, order.id ∉ ids) :
    among ids orders = [] :=
  List.filter_eq_nil_iff.mpr fun order member among => outside order member (List.contains_iff_mem.mp among)

theorem among_among {ids wider : List String} (sub : ∀ id ∈ ids, id ∈ wider) (orders : List Order) :
    among ids (among wider orders) = among ids orders := by
  unfold among
  rw [List.filter_filter]
  apply List.filter_congr
  intro order _
  rw [Bool.eq_iff_iff, Bool.and_eq_true, List.contains_iff_mem, List.contains_iff_mem]
  exact ⟨And.left, fun member => ⟨member, sub _ member⟩⟩

theorem among_append (ids : List String) (orders others : List Order) :
    among ids (orders ++ others) = among ids orders ++ among ids others :=
  List.filter_append ..

/-- Cancellations do not change which orders have some ids. -/
theorem among_withdrawn (ids marked : List String) (orders : List Order) :
    among ids (orders.map (Order.withdrawn marked)) = (among ids orders).map (Order.withdrawn marked) := by
  unfold among
  rw [List.filter_map]
  simp only [Function.comp_def, Order.withdrawn_id]

/-- The orders of a book of one's own are in a shared book, in their order and under other names. -/
structure Mirrors (rename : String → String) (own shared : PaperBook) : Prop where
  numbered : own.Numbered
  sharedNumbered : shared.Numbered
  orders : among (own.names rename) shared.orders = own.orders.map (Order.renamed rename)

namespace Mirrors

variable {rename : String → String} {own shared : PaperBook} (mirrors : Mirrors rename own shared)
include mirrors

theorem names_eq : own.names rename = (among (own.names rename) shared.orders).map Order.id := by
  rw [mirrors.orders, Order.renamed_ids]
  rfl

theorem nodup : (own.names rename).Nodup := by
  rw [mirrors.names_eq]
  exact mirrors.sharedNumbered.nodup.sublist (List.filter_sublist.map _)

theorem names_subset {name : String} (member : name ∈ own.names rename) : name ∈ shared.ids := by
  rw [mirrors.names_eq] at member
  exact (List.filter_sublist.map _).subset member

theorem injective {id other : String} (member : id ∈ own.ids) (otherMember : other ∈ own.ids)
    (same : rename id = rename other) : id = other :=
  List.inj_on_of_nodup_map mirrors.nodup member otherMember same

/-- Among the own orders, those with some ids are those with the other names of these ids. -/
theorem mem_renamed {ids : List String} (known : ∀ id ∈ ids, id ∈ own.ids) {order : Order}
    (member : order ∈ own.orders) : (order.renamed rename).id ∈ ids.map rename ↔ order.id ∈ ids := by
  constructor
  · intro named
    obtain ⟨id, isId, same⟩ := List.mem_map.mp named
    rw [← mirrors.injective (known id isId) (List.mem_map_of_mem member) same]
    exact isId
  · exact List.mem_map_of_mem

/-- A shared book shows the same open orders of known ids. -/
theorem shown {ids : List String} (known : ∀ id ∈ ids, id ∈ own.ids) (symbol : String) :
    among (ids.map rename) (shared.openOrders symbol) =
      (among ids (own.openOrders symbol)).map (Order.renamed rename) := by
  have wider : ∀ name ∈ ids.map rename, name ∈ own.names rename := by
    intro name member
    obtain ⟨id, isId, rfl⟩ := List.mem_map.mp member
    exact List.mem_map_of_mem (known id isId)
  calc among (ids.map rename) (shared.openOrders symbol)
    _ = among (ids.map rename) ((among (own.names rename) shared.orders).filter fun order =>
          order.symbol == symbol && (order.isOpen || order.isLive)) := by
      unfold PaperBook.openOrders
      rw [← among_among wider]
      unfold among
      exact congrArg (List.filter _) (List.filter_comm ..)
    _ = among (ids.map rename) ((own.openOrders symbol).map (Order.renamed rename)) := by
      rw [mirrors.orders, List.filter_map]
      rfl
    _ = (among ids (own.openOrders symbol)).map (Order.renamed rename) := by
      unfold among
      rw [List.filter_map]
      congr 1
      apply List.filter_congr
      intro order isOpen
      rw [Bool.eq_iff_iff, List.contains_iff_mem, Function.comp_apply, List.contains_iff_mem]
      exact mirrors.mem_renamed known (List.mem_of_mem_filter isOpen)

end Mirrors

/-! ### What a caller leaves to the others -/

/-- A caller changes a shared book: it cancels orders with names of its own, and it adds orders. -/
structure Touches (names : List String) (before after : PaperBook) : Prop where
  numbered : after.Numbered
  orders : ∃ marked added, (∀ name ∈ marked, name ∈ names) ∧
    after.orders = before.orders.map (Order.withdrawn marked) ++ added

theorem Touches.refl (names : List String) {book : PaperBook} (numbered : book.Numbered) : Touches names book book := by
  refine ⟨numbered, [], [], fun _ member => absurd member List.not_mem_nil, ?_⟩
  rw [PaperScript.withdrawn_nil, List.map_id, List.append_nil]

/-- The orders of a caller stay as they are while others change the book. -/
theorem Mirrors.untouched {rename : String → String} {own before after : PaperBook} {names : List String}
    (mirrors : Mirrors rename own before) (touches : Touches names before after)
    (apart : ∀ name ∈ own.names rename, name ∉ names) : Mirrors rename own after := by
  obtain ⟨marked, added, inside, changed⟩ := touches.orders
  refine ⟨mirrors.numbered, touches.numbered, ?_⟩
  have distinct := touches.numbered.nodup
  rw [changed, List.map_append, List.map_map] at distinct
  have sameIds : before.orders.map (Order.id ∘ Order.withdrawn marked) = before.ids :=
    List.map_congr_left fun order _ => order.withdrawn_id marked
  rw [sameIds] at distinct
  have foreign : among (own.names rename) added = [] := by
    apply among_eq_nil
    intro order member own
    exact (List.nodup_append.mp distinct).2.2 _ (mirrors.names_subset own) _ (List.mem_map_of_mem member) rfl
  have unmarked : (among (own.names rename) before.orders).map (Order.withdrawn marked) =
      among (own.names rename) before.orders := by
    apply PaperScript.map_withdrawn_of_fresh
    intro order member marked
    exact apart order.id (List.contains_iff_mem.mp (List.mem_filter.mp member).2) (inside _ marked)
  rw [changed, among_append, among_withdrawn, unmarked, foreign, List.append_nil, mirrors.orders]

/-! ### One caller in both books -/

/-- What a caller does in a book of its own, and does again in a shared book that mirrors it. -/
structure MirrorStep (rename : String → String) (own shared : PaperBook) (extended : String → String)
    (ownAfter sharedAfter : PaperBook) : Prop where
  mirrors : Mirrors extended ownAfter sharedAfter
  grown : Extends rename own extended ownAfter
  touches : Touches (own.names rename) shared sharedAfter
  /-- Names that come in are nobody's yet. -/
  fresh : ∀ name ∈ ownAfter.names extended, name ∈ own.names rename ∨ name ∉ shared.ids

namespace Mirrors

variable {rename : String → String} {own shared ownAfter sharedAfter : PaperBook}
  (mirrors : Mirrors rename own shared)
include mirrors

theorem stay : MirrorStep rename own shared rename own shared where
  mirrors := mirrors
  grown := .refl rename own
  touches := .refl _ mirrors.sharedNumbered
  fresh _ member := .inl member

/-- Cancellations of own orders. -/
theorem withdraw {marked : List String} (known : ∀ id ∈ marked, id ∈ own.ids)
    (ownMarked : ownAfter.orders = own.orders.map (Order.withdrawn marked))
    (sharedMarked : sharedAfter.orders = shared.orders.map (Order.withdrawn (marked.map rename))) :
    MirrorStep rename own shared rename ownAfter sharedAfter := by
  have sameIds : ownAfter.ids = own.ids := by
    unfold ids
    rw [ownMarked, List.map_map]
    exact List.map_congr_left fun order _ => order.withdrawn_id marked
  have sharedNumbered := mirrors.sharedNumbered.withdrawn sharedMarked
  refine ⟨⟨mirrors.numbered.withdrawn ownMarked, sharedNumbered, ?orders⟩, ?grown, ?touches, ?fresh⟩
  case orders =>
    rw [names, sameIds, sharedMarked, among_withdrawn, ← names, mirrors.orders, ownMarked, List.map_map, List.map_map]
    apply List.map_congr_left
    intro order member
    simp only [Function.comp_apply, Order.withdrawn, mirrors.mem_renamed known member]
    split
    · rfl
    · rfl
  case grown => exact ⟨fun id member => (congrArg (id ∈ ·) sameIds).mpr member, fun _ _ => rfl⟩
  case touches =>
    refine ⟨sharedNumbered, marked.map rename, [], ?_, by rw [sharedMarked, List.append_nil]⟩
    intro name member
    obtain ⟨id, isMarked, rfl⟩ := List.mem_map.mp member
    exact List.mem_map_of_mem (known id isMarked)
  case fresh =>
    intro name member
    rw [names, sameIds] at member
    exact .inl member

/-- Further names, of orders that are not in the shared book, change nothing about those in it. -/
theorem among_extended {extended : String → String} (grown : Extends rename own extended ownAfter) {names : List String}
    (fresh : ∀ name ∈ names, name ∉ shared.ids) :
    among (own.names rename ++ names) shared.orders = own.orders.map (Order.renamed extended) := by
  have kept : own.orders.map (Order.renamed extended) = own.orders.map (Order.renamed rename) := by
    apply List.map_congr_left
    intro order member
    rw [Order.renamed, grown.names order.id (List.mem_map_of_mem member)]
    rfl
  rw [kept, ← mirrors.orders]
  apply among_congr
  intro order member
  rw [List.mem_append, or_iff_left]
  intro new
  exact fresh order.id new (List.mem_map_of_mem member)

/-- New orders for the same legs, which get their names in the shared book. -/
theorem add {script : PaperScript} {legs : List OrderLeg}
    (ownAdded : ownAfter.orders = own.orders ++ script.ordersOf own.orders.length legs)
    (sharedAdded : sharedAfter.orders = shared.orders ++ script.ordersOf shared.orders.length legs) :
    ∃ extended, MirrorStep rename own shared extended ownAfter sharedAfter ∧
      (script.ordersOf own.orders.length legs).map (Order.renamed extended) =
        script.ordersOf shared.orders.length legs := by
  have sameLegs : (script.ordersOf own.orders.length legs).map Order.leg =
      (script.ordersOf shared.orders.length legs).map Order.leg := by
    rw [PaperScript.ordersOf_leg, PaperScript.ordersOf_leg]
  have sameLength : (script.ordersOf own.orders.length legs).length =
      ((script.ordersOf shared.orders.length legs).map Order.id).length := by
    simpa only [List.length_map] using congrArg List.length sameLegs
  have ownNumbered := mirrors.numbered.ordersOf ownAdded
  have sharedNumbered := mirrors.sharedNumbered.ordersOf sharedAdded
  obtain ⟨extended, grown, given⟩ := exists_extends rename ownNumbered ownAdded sameLength
  have renamed := Order.renamed_eq (script.ordersOf_new _ legs) (script.ordersOf_new _ legs) sameLegs given
  have names : ownAfter.names extended =
      own.names rename ++ (script.ordersOf shared.orders.length legs).map Order.id := by
    rw [PaperBook.names, ids, ownAdded, List.map_append, List.map_append, given]
    exact congrArg (· ++ _) (List.map_congr_left fun id member => grown.names id member)
  have distinct := sharedNumbered.nodup
  rw [sharedAdded, List.map_append] at distinct
  have disjoint := (List.nodup_append.mp distinct).2.2
  have before : among (ownAfter.names extended) shared.orders = own.orders.map (Order.renamed extended) := by
    rw [names]
    apply mirrors.among_extended grown
    intro name new member
    exact disjoint name member name new rfl
  have new : among (ownAfter.names extended) (script.ordersOf shared.orders.length legs) =
      script.ordersOf shared.orders.length legs := by
    apply among_eq_self
    intro order member
    rw [names]
    exact List.mem_append_right _ (List.mem_map_of_mem member)
  refine ⟨extended, ⟨⟨ownNumbered, sharedNumbered, ?mirrored⟩, grown, ?touches, ?fresh⟩, renamed⟩
  case mirrored => rw [sharedAdded, among_append, before, new, ownAdded, List.map_append, renamed]
  case touches =>
    refine ⟨sharedNumbered, [], script.ordersOf shared.orders.length legs,
      fun _ member => absurd member List.not_mem_nil, ?_⟩
    rw [PaperScript.withdrawn_nil, List.map_id]
    exact sharedAdded
  case fresh =>
    intro name member
    rw [names, List.mem_append] at member
    exact member.imp id fun new before => disjoint name before name new rfl

end Mirrors

end PaperBook

end TradingStrategy

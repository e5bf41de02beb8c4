import TradingStrategy.Proofs.Venue.Interleaving
import TradingStrategy.Venue.Cached
import TradingStrategy.Venue.Paper

/-!
Answers of a cache that callers share.

Owns:
- the points at which calls to a paper venue behind a cache can stand;
- which placements a list of open orders knows of: `Shared.Complete`, `Shared.Source`;
- `later_query_shows_order`: a later query sees what was placed, but for one kind of stale answer.

A placement forgets its symbol before it reaches the book. A query that has read the book earlier can still remember
what it read after that.
-/

namespace TradingStrategy

/-- The venue shows the order among its open orders. -/
def Order.IsShown (order : Order) : Prop :=
  (order.isOpen || order.isLive) = true

theorem Call.done_andThen {σ α β : Type} (answer : Except VenueError α) (tell : α → β) :
    (Call.done answer : Call σ α).andThen (fun value => .done (.ok (tell value))) = .done (answer.map tell) := by
  cases answer with
  | ok value => rfl
  | error error => rfl

/-! ### The sections of calls -/

/-- What is left of a query that has read the book. -/
def Cached.store (symbol : String) (orders : List Order) : Call (Cached PaperBook) Answer :=
  .step (fun clock state => state.remember symbol clock orders) fun _ _ => .done (.ok (.listed orders))

namespace PaperScript

variable (script : PaperScript)

/-- What is left of a placement that has been counted. -/
def settle (leg : OrderLeg) (placement : Nat) : Call (Cached PaperBook) Answer :=
  .pause (script.placementPause placement) <|
    .step (fun _ state => { state with inner := script.afterPlacement placement leg state.inner }) fun _ state =>
      .done ((script.accept placement leg state.inner).map .placed)

/-- What is left of a placement that has made the cache forget its symbol. -/
def count (leg : OrderLeg) : Call (Cached PaperBook) Answer :=
  .pause script.latency <|
    .step (fun _ state => { state with inner := state.inner.count }) fun _ state =>
      script.settle leg (state.inner.placements + 1)

/-- What is left of a cancellation that has made the cache forget everything. -/
def withdraw (id : String) : Call (Cached PaperBook) Answer :=
  .pause script.latency <| .pause script.cancelLatency <|
    .step (fun _ state => { state with inner := script.afterCancel id state.inner }) fun _ state =>
      .done <| Except.map (fun _ => .cancelled) <| match script.cancelError? id state.inner with
        | some error => .error error
        | none => .ok ()

/-- What is left of a query that has found nothing in the cache. -/
def fetch (symbol : String) : Call (Cached PaperBook) Answer :=
  .pause script.latency <|
    .step (fun _ state => state) fun _ state => Cached.store symbol (state.inner.openOrders symbol)

/-- What is left of a query that has looked into the cache. -/
def look (ttl : Nat) (symbol : String) (clock : Nat) (state : Cached PaperBook) : Call (Cached PaperBook) Answer :=
  match state.remembered? ttl clock symbol with
  | some orders => .done (.ok (.listed orders))
  | none => script.fetch symbol

/-! #### What they do to the book -/

variable {script}

theorem mem_afterPlacement {placement : Nat} {leg : OrderLeg} {book : PaperBook} {order : Order}
    (booked : order ∈ book.orders) : order ∈ (script.afterPlacement placement leg book).orders := by
  unfold afterPlacement
  split
  · exact List.mem_append_left _ booked
  · exact booked

theorem accept_booked {placement : Nat} {leg : OrderLeg} {book : PaperBook} {order : Order}
    (accepted : script.accept placement leg book = .ok order) :
    order ∈ (script.afterPlacement placement leg book).orders := by
  simp only [afterPlacement, accepted]
  exact List.mem_append_right _ (List.mem_singleton.mpr rfl)

theorem accept_leg {placement : Nat} {leg : OrderLeg} {book : PaperBook} {order : Order}
    (accepted : script.accept placement leg book = .ok order) : order.leg = leg := by
  unfold accept at accepted
  split at accepted
  · contradiction
  · rw [← Except.ok.inj accepted]
    rfl

theorem accept_of_placed {placement : Nat} {leg : OrderLeg} {book : PaperBook} {order : Order}
    (told : (script.accept placement leg book).map Answer.placed = .ok (.placed order)) :
    script.accept placement leg book = .ok order := by
  cases decided : script.accept placement leg book with
  | ok other =>
    rw [decided] at told
    rw [Answer.placed.inj (Except.ok.inj told)]
  | error error =>
    rw [decided] at told
    contradiction

/-- A cancellation changes the order with its id only. -/
theorem mem_afterCancel {id : String} {book : PaperBook} {order : Order} (booked : order ∈ book.orders)
    (other : order.id ≠ id) : order ∈ (script.afterCancel id book).orders := by
  unfold afterCancel
  split
  · exact booked
  · exact List.mem_map.mpr ⟨order, booked, if_neg other⟩

/-! #### The calls in full -/

variable (script)
variable (ttl : Nat)

theorem call_place (leg : OrderLeg) : (script.venue.cached ttl).call (.place leg) =
    .step (fun _ state => state.forget leg.symbol) fun _ _ => script.count leg := by
  simp only [Venue.call, Venue.cached, Call.told, Cached.behind, venue, place, Call.onPart, Call.andThen,
    Call.done_andThen, count, settle]

theorem call_cancel (id : String) : (script.venue.cached ttl).call (.cancel id) =
    .step (fun _ state => state.forgetAll) fun _ _ => script.withdraw id := by
  simp only [Venue.call, Venue.cached, Call.told, Cached.behind, venue, cancel, Call.onPart, Call.andThen,
    Call.done_andThen]
  rfl

theorem call_openOrders (symbol : String) : (script.venue.cached ttl).call (.openOrders symbol) =
    .step (fun _ state => state) fun clock state => script.look ttl symbol clock state := by
  simp only [Venue.call, Venue.cached, Call.told, Call.andThen]
  congr
  funext clock state
  simp only [look]
  cases state.remembered? ttl clock symbol with
  | some orders => rfl
  | none => rfl

end PaperScript

/-! ### Where calls stand -/

namespace Shared

variable (shared : Shared (Cached PaperBook))

/-- The orders tell of every placement for the symbol that reached the book up to a position, unless the cancellation of
its order has started. -/
def Complete (symbol : String) (position : Nat) (orders : List Order) : Prop :=
  ∀ leg order forget count entry,
    ⟨.place leg, .done (.ok (.placed order)), [forget, count, entry]⟩ ∈ shared.callers →
    leg.symbol = symbol → order.IsShown → entry.position ≤ position →
    order ∈ orders ∨ shared.Cancelling order.id

/-- A query remembered the orders at a time, and no placement for the symbol has made the cache forget them between then
and a position. -/
def Source (symbol : String) (position clock : Nat) (orders : List Order) : Prop :=
  ∃ read fetch store, ⟨.openOrders symbol, .done (.ok (.listed orders)), [read, fetch, store]⟩ ∈ shared.callers ∧
    store.clock = clock ∧ store.position < position ∧
    ∀ leg rest forget sections, ⟨.place leg, rest, forget :: sections⟩ ∈ shared.callers →
      leg.symbol = symbol → forget.position < position → forget.position < store.position

end Shared

/-- The points at which a call can stand, and what is known of the lists that queries hold. -/
inductive Caller.Stands (script : PaperScript) (ttl : Nat) (shared : Shared (Cached PaperBook)) :
    Caller (Cached PaperBook) → Prop
  | started request : Stands script ttl shared ⟨request, (script.venue.cached ttl).call request, []⟩
  | forgot leg forget :
      Stands script ttl shared ⟨.place leg, script.count leg, [forget]⟩
  | counted leg placement forget count :
      Stands script ttl shared ⟨.place leg, script.settle leg placement, [forget, count]⟩
  | settled leg answer forget count entry (ofLeg : ∀ order, answer = .ok (.placed order) → order.leg = leg) :
      Stands script ttl shared ⟨.place leg, .done answer, [forget, count, entry]⟩
  | forgotAll id forget :
      Stands script ttl shared ⟨.cancel id, script.withdraw id, [forget]⟩
  | withdrawn id answer forget change :
      Stands script ttl shared ⟨.cancel id, .done answer, [forget, change]⟩
  | hit symbol orders read clock (fresh : read.clock - clock < ttl)
      (source : shared.Source symbol read.position clock orders) :
      Stands script ttl shared ⟨.openOrders symbol, .done (.ok (.listed orders)), [read]⟩
  | missed symbol read : Stands script ttl shared ⟨.openOrders symbol, script.fetch symbol, [read]⟩
  | fetched symbol orders read fetch (complete : shared.Complete symbol fetch.position orders) :
      Stands script ttl shared ⟨.openOrders symbol, Cached.store symbol orders, [read, fetch]⟩
  | stored symbol orders read fetch store (complete : shared.Complete symbol fetch.position orders) :
      Stands script ttl shared ⟨.openOrders symbol, .done (.ok (.listed orders)), [read, fetch, store]⟩

namespace Shared

variable {script : PaperScript} {ttl : Nat} {shared later : Shared (Cached PaperBook)} {symbol : String}
  {position clock : Nat} {orders : List Order}

/-- Nothing that happens later concerns a list that was complete up to now. -/
theorem Complete.continues (complete : shared.Complete symbol position orders) (before : position < shared.sections)
    (continues : shared.Continues later) : later.Complete symbol position orders := by
  intro leg order forget count entry member sameSymbol shown earlier
  obtain same | unmoved | ⟨old, -, now, -, ran, isNow, -⟩ := continues.origin _ member
  · exact (complete leg order forget count entry same sameSymbol shown earlier).imp_right continues.cancelling
  · contradiction
  · have last : entry = now := by
      have reversed := congrArg List.getLast? ran
      simpa using reversed
    rw [last, isNow] at earlier
    exact absurd earlier (Nat.not_le.mpr before)

theorem Source.continues (source : shared.Source symbol position clock orders) (before : position ≤ shared.sections)
    (continues : shared.Continues later) : later.Source symbol position clock orders := by
  obtain ⟨read, fetch, store, member, time, ran, undisturbed⟩ := source
  refine ⟨read, fetch, store, continues.ended _ member ⟨_, rfl⟩, time, ran, ?_⟩
  intro leg rest forget sections placing sameSymbol earlier
  obtain same | unmoved | ⟨⟨request, oldRest, ran⟩, oldMember, now, asked, ranNow, isNow, -⟩ :=
    continues.origin _ placing
  · exact undisturbed leg rest forget sections same sameSymbol earlier
  · contradiction
  · cases ran with
    | nil =>
      have first : forget = now := (List.cons.inj ranNow).1
      rw [first, isNow] at earlier
      exact absurd earlier (Nat.not_lt.mpr before)
    | cons first others =>
      obtain rfl : forget = first := (List.cons.inj ranNow).1
      obtain rfl : Request.place leg = request := asked
      exact undisturbed leg oldRest forget others oldMember sameSymbol earlier

end Shared

theorem Caller.Stands.continues {script : PaperScript} {ttl : Nat} {shared later : Shared (Cached PaperBook)}
    {caller : Caller (Cached PaperBook)} (stands : caller.Stands script ttl shared)
    (before : ∀ moment ∈ caller.ran, moment.position < shared.sections) (continues : shared.Continues later) :
    caller.Stands script ttl later := by
  cases stands with
  | started request => exact .started request
  | forgot leg forget => exact .forgot leg forget
  | counted leg placement forget count => exact .counted leg placement forget count
  | settled leg answer forget count entry ofLeg => exact .settled leg answer forget count entry ofLeg
  | forgotAll id forget => exact .forgotAll id forget
  | withdrawn id answer forget change => exact .withdrawn id answer forget change
  | hit symbol orders read clock fresh source =>
    have ran := Nat.le_of_lt (before read (by simp))
    exact .hit symbol orders read clock fresh (source.continues ran continues)
  | missed symbol read => exact .missed symbol read
  | fetched symbol orders read fetch complete =>
    have ran := before fetch (by simp)
    exact .fetched symbol orders read fetch (complete.continues ran continues)
  | stored symbol orders read fetch store complete =>
    have ran := before fetch (by simp)
    exact .stored symbol orders read fetch store (complete.continues ran continues)

/-! ### What a section must keep -/

/-- Every call stands at one of its points, the book shows what was placed, and every remembered list has its source. -/
structure Shared.Sound (script : PaperScript) (ttl : Nat) (shared : Shared (Cached PaperBook)) : Prop where
  ranBefore : shared.RanBefore
  stands : ∀ caller ∈ shared.callers, caller.Stands script ttl shared
  booked : ∀ leg order ran, ⟨.place leg, .done (.ok (.placed order)), ran⟩ ∈ shared.callers →
    order ∈ shared.venue.inner.orders ∨ shared.Cancelling order.id
  sources : ∀ entry ∈ shared.venue.entries,
    shared.Source entry.symbol shared.sections entry.fetched entry.orders

namespace Shared

variable {script : PaperScript} {ttl : Nat} {shared : Shared (Cached PaperBook)}

theorem Sound.start (sound : shared.Sound script ttl) (request : Request) :
    (shared.move (script.venue.cached ttl) (.start request)).Sound script ttl := by
  have continues := shared.start_continues (script.venue.cached ttl) request
  refine ⟨continues.ranBefore sound.ranBefore, ?stands, ?booked, ?sources⟩
  case stands =>
    intro caller member
    rcases List.mem_append.mp member with member | member
    · exact (sound.stands caller member).continues (sound.ranBefore caller member) continues
    · rw [List.mem_singleton.mp member]
      exact .started request
  case booked =>
    intro leg order ran member
    rcases List.mem_append.mp member with member | member
    · exact (sound.booked leg order ran member).imp_right continues.cancelling
    · have isNew := List.mem_singleton.mp member
      contradiction
  case sources =>
    intro entry member
    exact (sound.sources entry member).continues (Nat.le_refl _) continues

theorem Sound.wait (sound : shared.Sound script ttl) (milliseconds : Nat) :
    (shared.move (script.venue.cached ttl) (.wait milliseconds)).Sound script ttl := by
  have continues : shared.Continues (shared.move (script.venue.cached ttl) (.wait milliseconds)) :=
    continues_of_callers_eq rfl (Nat.le_refl _)
  refine ⟨continues.ranBefore sound.ranBefore, ?stands, ?booked, ?sources⟩
  case stands =>
    intro caller member
    exact (sound.stands caller member).continues (sound.ranBefore caller member) continues
  case booked =>
    intro leg order ran member
    exact (sound.booked leg order ran member).imp_right continues.cancelling
  case sources =>
    intro entry member
    exact (sound.sources entry member).continues (Nat.le_refl _) continues

/-- What the section of a caller owes the others. -/
structure Harmless (script : PaperScript) (ttl : Nat) (shared : Shared (Cached PaperBook))
    (caller : Caller (Cached PaperBook)) (index : Nat) (state : Cached PaperBook)
    (rest : Call (Cached PaperBook) Answer) : Prop where
  stands : Caller.Stands script ttl (shared.advance index caller state rest)
    ⟨caller.request, rest, caller.ran ++ [⟨shared.sections, shared.clock⟩]⟩
  /-- An order stays among the open orders, unless it is being cancelled. -/
  keeps : ∀ order ∈ shared.venue.inner.orders, order ∈ state.inner.orders ∨ shared.Cancelling order.id
  /-- A placement has put its order into the book. -/
  places : ∀ order, rest = .done (.ok (.placed order)) → order ∈ state.inner.orders
  /-- What is remembered was so before, for a symbol that is not forgotten now, or is what the caller has read. -/
  remembers : ∀ entry ∈ state.entries,
    (entry ∈ shared.venue.entries ∧ ∀ leg, caller.request = .place leg → caller.ran = [] → leg.symbol ≠ entry.symbol) ∨
      ∃ read fetch, caller.request = .openOrders entry.symbol ∧ rest = .done (.ok (.listed entry.orders)) ∧
        caller.ran = [read, fetch] ∧ entry.fetched = shared.clock

variable {caller : Caller (Cached PaperBook)} {index : Nat} {state : Cached PaperBook}
  {rest : Call (Cached PaperBook) Answer}

/-- A placement that has forgotten its symbol had done so before, or is the caller whose first section this is. -/
theorem placing_advance (found : shared.callers[index]? = some caller) {leg : OrderLeg}
    {left : Call (Cached PaperBook) Answer} {forget : Moment} {sections : List Moment}
    (member : ⟨.place leg, left, forget :: sections⟩ ∈ (shared.advance index caller state rest).callers) :
    (∃ left sections, ⟨.place leg, left, forget :: sections⟩ ∈ shared.callers) ∨
      (caller.request = .place leg ∧ caller.ran = []) := by
  rcases List.mem_or_eq_of_mem_set member with member | isNew
  · exact .inl ⟨left, sections, member⟩
  · obtain ⟨request, before, ran⟩ := caller
    obtain rfl : Request.place leg = request := congrArg Caller.request isNew
    cases ran with
    | nil => exact .inr ⟨rfl, rfl⟩
    | cons first others =>
      have sameRan : forget :: sections = first :: others ++ [⟨shared.sections, shared.clock⟩] :=
        congrArg Caller.ran isNew
      obtain rfl : forget = first := (List.cons.inj sameRan).1
      exact .inl ⟨before, others, List.mem_of_getElem? found⟩

theorem Sound.advance (sound : shared.Sound script ttl) (found : shared.callers[index]? = some caller)
    (running : ¬caller.HasEnded) (harmless : shared.Harmless script ttl caller index state rest) :
    (shared.advance index caller state rest).Sound script ttl := by
  have continues := advance_continues found running state rest
  refine ⟨continues.ranBefore sound.ranBefore, ?stands, ?booked, ?sources⟩
  case stands =>
    intro other member
    rcases List.mem_or_eq_of_mem_set member with member | rfl
    · exact (sound.stands other member).continues (sound.ranBefore other member) continues
    · exact harmless.stands
  case booked =>
    intro leg order ran member
    rcases List.mem_or_eq_of_mem_set member with member | isNew
    · rcases sound.booked leg order ran member with booked | cancelling
      · exact (harmless.keeps order booked).imp_right continues.cancelling
      · exact .inr (continues.cancelling cancelling)
    · exact .inl (harmless.places order (congrArg Caller.rest isNew).symm)
  case sources =>
    intro entry member
    rcases harmless.remembers entry member with ⟨old, undisturbedNow⟩ | ⟨read, fetch, asked, ended, ran, time⟩
    · obtain ⟨read, fetch, store, reader, time, stored, undisturbed⟩ := sound.sources entry old
      refine ⟨read, fetch, store, continues.ended _ reader ⟨_, rfl⟩, time, Nat.lt_succ_of_lt stored, ?_⟩
      intro leg left forget sections placing sameSymbol _
      rcases placing_advance found placing with ⟨left, sections, placing⟩ | ⟨asked, unmoved⟩
      · exact undisturbed leg left forget sections placing sameSymbol (sound.ranBefore _ placing forget (by simp))
      · exact absurd sameSymbol (undisturbedNow leg asked unmoved)
    · obtain ⟨inside, -⟩ := List.getElem?_eq_some_iff.mp found
      obtain ⟨request, before, ranBefore⟩ := caller
      obtain rfl : request = .openOrders entry.symbol := asked
      obtain rfl : ranBefore = [read, fetch] := ran
      subst ended
      refine ⟨read, fetch, ⟨shared.sections, shared.clock⟩, List.mem_set inside _, time.symm, Nat.lt_succ_self _, ?_⟩
      intro leg left forget sections placing _ _
      rcases placing_advance found placing with ⟨left, sections, placing⟩ | ⟨placed, -⟩
      · exact sound.ranBefore _ placing forget (by simp)
      · contradiction

/-- What a query reads from the book is complete up to now. -/
theorem Sound.complete (sound : shared.Sound script ttl) (found : shared.callers[index]? = some caller)
    (running : ¬caller.HasEnded) (query : ∀ leg, caller.request ≠ .place leg) (symbol : String) (position : Nat) :
    (shared.advance index caller state rest).Complete symbol position (shared.venue.inner.openOrders symbol) := by
  intro leg order forget count entry member sameSymbol shown _
  rcases List.mem_or_eq_of_mem_set member with member | isNew
  · cases sound.stands _ member with
    | settled _ _ _ _ _ ofLeg =>
      rcases sound.booked leg order _ member with booked | cancelling
      · refine .inl (List.mem_filter.mpr ⟨booked, ?_⟩)
        rw [Order.symbol, ofLeg order rfl, sameSymbol, beq_self_eq_true, Bool.true_and]
        exact shown
      · exact .inr ((advance_continues found running state rest).cancelling cancelling)
  · exact absurd (congrArg Caller.request isNew).symm (query leg)

theorem Sound.source_of_remembered? (sound : shared.Sound script ttl) {symbol : String} {orders : List Order}
    (hit : shared.venue.remembered? ttl shared.clock symbol = some orders) :
    ∃ clock, shared.clock - clock < ttl ∧ shared.Source symbol shared.sections clock orders := by
  unfold Cached.remembered? at hit
  split at hit
  · next entry found =>
    have source := sound.sources entry (List.mem_of_find?_eq_some found)
    have named : entry.symbol = symbol := by simpa using List.find?_some found
    split at hit
    · next fresh =>
      rw [named, Option.some.inj hit] at source
      exact ⟨entry.fetched, fresh, source⟩
    · contradiction
  · contradiction

/-- A section that touches neither the book nor what is remembered. -/
theorem Harmless.ofStands (same : state.inner.orders = shared.venue.inner.orders)
    (entries : state.entries = shared.venue.entries) (later : caller.ran ≠ [] ∨ ∀ leg, caller.request ≠ .place leg)
    (going : ∀ order, rest ≠ .done (.ok (.placed order)))
    (stands : Caller.Stands script ttl (shared.advance index caller state rest)
      ⟨caller.request, rest, caller.ran ++ [⟨shared.sections, shared.clock⟩]⟩) :
    shared.Harmless script ttl caller index state rest where
  stands := stands
  keeps order booked := .inl (same ▸ booked)
  places order ended := absurd ended (going order)
  remembers entry member := by
    refine .inl ⟨entries ▸ member, ?_⟩
    intro leg asked unmoved
    rcases later with moved | other
    · exact absurd unmoved moved
    · exact absurd asked (other leg)

theorem Sound.look_harmless (sound : shared.Sound script ttl) {symbol : String}
    (found : shared.callers[index]? = some caller) (running : ¬caller.HasEnded)
    (asked : caller.request = .openOrders symbol) (unmoved : caller.ran = []) :
    shared.Harmless script ttl caller index shared.venue (script.look ttl symbol shared.clock shared.venue) := by
  have query : ∀ leg, caller.request ≠ .place leg := fun leg placing => by rw [asked] at placing; contradiction
  have stands : Caller.Stands script ttl
      (shared.advance index caller shared.venue (script.look ttl symbol shared.clock shared.venue))
      ⟨.openOrders symbol, script.look ttl symbol shared.clock shared.venue, [⟨shared.sections, shared.clock⟩]⟩ := by
    have continues := advance_continues found running shared.venue
      (script.look ttl symbol shared.clock shared.venue)
    unfold PaperScript.look at continues ⊢
    match hit : shared.venue.remembered? ttl shared.clock symbol with
    | some orders =>
      rw [hit] at continues
      obtain ⟨clock, fresh, source⟩ := sound.source_of_remembered? hit
      exact .hit symbol orders _ clock fresh (source.continues (Nat.le_refl _) continues)
    | none => exact .missed symbol _
  apply Harmless.ofStands rfl rfl (.inr query)
  · intro order placed
    unfold PaperScript.look at placed
    split at placed
    · simp at placed
    · contradiction
  · rw [asked, unmoved]
    exact stands

theorem forget_harmless (leg : OrderLeg) (before : Call (Cached PaperBook) Answer) (index : Nat) :
    shared.Harmless script ttl ⟨.place leg, before, []⟩ index (shared.venue.forget leg.symbol) (script.count leg) where
  stands := .forgot leg _
  keeps _ booked := .inl booked
  places _ ended := by simp only [PaperScript.count, reduceCtorEq] at ended
  remembers entry member := by
    obtain ⟨old, other⟩ := List.mem_filter.mp member
    refine .inl ⟨old, ?_⟩
    rintro _ ⟨⟩ _ same
    simp [same] at other

/-- A placement that is settled adds its order to the book, if it is accepted. -/
theorem settle_harmless (leg : OrderLeg) (placement : Nat) (forget count : Moment) (index : Nat) :
    shared.Harmless script ttl ⟨.place leg, script.settle leg placement, [forget, count]⟩ index
      { shared.venue with inner := script.afterPlacement placement leg shared.venue.inner }
      (.done ((script.accept placement leg shared.venue.inner).map .placed)) where
  stands := .settled leg _ forget count _ fun _ told =>
    PaperScript.accept_leg (PaperScript.accept_of_placed told)
  keeps _ booked := .inl (PaperScript.mem_afterPlacement booked)
  places _ ended := PaperScript.accept_booked (PaperScript.accept_of_placed (Call.done.inj ended))
  remembers _ member := .inl ⟨member, fun _ _ unmoved => absurd unmoved (List.cons_ne_nil _ _)⟩

/-- A cancellation changes one order, which is being cancelled then. -/
theorem withdraw_harmless {id : String} {forget : Moment}
    (found : shared.callers[index]? = some ⟨.cancel id, script.withdraw id, [forget]⟩) :
    shared.Harmless script ttl ⟨.cancel id, script.withdraw id, [forget]⟩ index
      { shared.venue with inner := script.afterCancel id shared.venue.inner }
      (.done <| Except.map (fun _ => .cancelled) <| match script.cancelError? id shared.venue.inner with
        | some error => .error error
        | none => .ok ()) where
  stands := .withdrawn id _ forget _
  keeps order booked := by
    rcases Decidable.em (order.id = id) with rfl | other
    · exact .inr ⟨_, List.mem_of_getElem? found, rfl⟩
    · exact .inl (PaperScript.mem_afterCancel booked other)
  places order ended := by
    have told := Call.done.inj ended
    cases refused : script.cancelError? id shared.venue.inner with
    | some error =>
      rw [refused] at told
      contradiction
    | none =>
      rw [refused] at told
      exact absurd (Except.ok.inj told) nofun
  remembers entry member := by
    refine .inl ⟨member, ?_⟩
    intro leg placing
    contradiction

/-- What a query remembers is what it has read. -/
theorem Sound.store_harmless (sound : shared.Sound script ttl) {symbol : String} {orders : List Order}
    {read fetch : Moment}
    (found : shared.callers[index]? = some ⟨.openOrders symbol, Cached.store symbol orders, [read, fetch]⟩)
    (complete : shared.Complete symbol fetch.position orders) :
    shared.Harmless script ttl ⟨.openOrders symbol, Cached.store symbol orders, [read, fetch]⟩ index
      (shared.venue.remember symbol shared.clock orders) (.done (.ok (.listed orders))) where
  stands := by
    have ran := sound.ranBefore _ (List.mem_of_getElem? found) fetch (by simp)
    have continues := advance_continues found (fun ended => by simp [Caller.HasEnded, Cached.store] at ended)
      (shared.venue.remember symbol shared.clock orders) (.done (.ok (.listed orders)))
    exact .stored symbol orders read fetch _ (complete.continues ran continues)
  keeps _ booked := .inl booked
  places _ ended := by simp only [Call.done.injEq, Except.ok.injEq, reduceCtorEq] at ended
  remembers entry member := by
    rcases List.mem_cons.mp member with rfl | member
    · exact .inr ⟨read, fetch, rfl, rfl, rfl, rfl⟩
    · exact .inl ⟨(List.mem_filter.mp member).1, fun _ _ unmoved => absurd unmoved (List.cons_ne_nil _ _)⟩

/-- Each section, from the point at which its call stands, is harmless. -/
theorem Sound.harmless (sound : shared.Sound script ttl) (found : shared.callers[index]? = some caller)
    {update : Nat → Cached PaperBook → Cached PaperBook}
    {next : Nat → Cached PaperBook → Call (Cached PaperBook) Answer} (goes : caller.rest.next? = some (update, next)) :
    shared.Harmless script ttl caller index (update shared.clock shared.venue) (next shared.clock shared.venue) := by
  have running := Caller.not_ended goes
  cases sound.stands caller (List.mem_of_getElem? found) with
  | started request =>
    cases request with
    | place leg =>
      rw [script.call_place] at goes
      obtain ⟨rfl, rfl⟩ := Prod.mk.inj (Option.some.inj goes)
      exact forget_harmless leg _ index
    | cancel id =>
      rw [script.call_cancel] at goes
      obtain ⟨rfl, rfl⟩ := Prod.mk.inj (Option.some.inj goes)
      refine ⟨.forgotAll id _, fun order booked => .inl booked, ?_, ?_⟩
      · intro order ended
        simp only [PaperScript.withdraw, reduceCtorEq] at ended
      · intro entry member
        exact absurd member List.not_mem_nil
    | openOrders symbol =>
      rw [script.call_openOrders] at goes
      obtain ⟨rfl, rfl⟩ := Prod.mk.inj (Option.some.inj goes)
      exact sound.look_harmless found running rfl rfl
  | forgot leg forget =>
    obtain ⟨rfl, rfl⟩ := Prod.mk.inj (Option.some.inj goes)
    refine Harmless.ofStands rfl rfl (.inl (List.cons_ne_nil _ _)) ?_ ?_
    · intro order ended
      simp only [PaperScript.settle, reduceCtorEq] at ended
    · exact .counted leg (shared.venue.inner.placements + 1) forget _
  | counted leg placement forget count =>
    obtain ⟨rfl, rfl⟩ := Prod.mk.inj (Option.some.inj goes)
    exact settle_harmless leg placement forget count index
  | settled leg answer forget count entry ofLeg => contradiction
  | forgotAll id forget =>
    obtain ⟨rfl, rfl⟩ := Prod.mk.inj (Option.some.inj goes)
    exact withdraw_harmless found
  | withdrawn id answer forget change => contradiction
  | hit symbol orders read clock fresh source => contradiction
  | missed symbol read =>
    obtain ⟨rfl, rfl⟩ := Prod.mk.inj (Option.some.inj goes)
    refine Harmless.ofStands rfl rfl (.inl (List.cons_ne_nil _ _)) ?_ ?_
    · intro order ended
      simp only [Cached.store, reduceCtorEq] at ended
    · exact .fetched symbol _ read _ (sound.complete found running nofun symbol _)
  | fetched symbol orders read fetch complete =>
    obtain ⟨rfl, rfl⟩ := Prod.mk.inj (Option.some.inj goes)
    exact sound.store_harmless found complete
  | stored symbol orders read fetch store complete => contradiction

theorem Sound.move (sound : shared.Sound script ttl) (move : Move) :
    (shared.move (script.venue.cached ttl) move).Sound script ttl := by
  cases move with
  | start request => exact sound.start request
  | wait milliseconds => exact sound.wait milliseconds
  | proceed index =>
    obtain same | ⟨caller, update, next, found, goes, proceeds⟩ :=
      proceed_cases (script.venue.cached ttl) shared index
    · rw [same]
      exact sound
    · rw [proceeds]
      exact sound.advance found (Caller.not_ended goes) (sound.harmless found goes)

theorem fresh_sound (script : PaperScript) (ttl clock : Nat) :
    (Shared.fresh clock (Cached.ofInner PaperBook.empty)).Sound script ttl where
  ranBefore _ member := absurd member List.not_mem_nil
  stands _ member := absurd member List.not_mem_nil
  booked _ _ _ member := absurd member List.not_mem_nil
  sources _ member := absurd member List.not_mem_nil

theorem run_sound (script : PaperScript) (ttl clock : Nat) (schedule : List Move) :
    ((fresh clock (.ofInner .empty)).run (script.venue.cached ttl) schedule).Sound script ttl :=
  run_induction (fresh_sound script ttl clock) (fun _ move sound => sound.move move) schedule

end Shared

/-! ### Reading what was written -/

namespace Shared

/-- A placement has returned an order, and a query for its symbol that starts later is answered. -/
structure ReadsAfter (venue : Venue (Cached PaperBook)) (now : Shared (Cached PaperBook)) (schedule : List Move)
    (placement query : Caller (Cached PaperBook)) (leg : OrderLeg) (order : Order) (orders : List Order) : Prop where
  member : placement ∈ now.callers
  placing : placement.request = .place leg
  returned : placement.rest = .done (.ok (.placed order))
  started : ∃ index, now.callers.length ≤ index ∧ (now.run venue schedule).callers[index]? = some query
  asking : query.request = .openOrders leg.symbol
  answered : query.rest = .done (.ok (.listed orders))

/-- Another query for the symbol had read the book before the placement reached it, and remembered what it had read
after the placement had made the cache forget it. The query is answered with that, because it is not too old. -/
def Stale (shared : Shared (Cached PaperBook)) (ttl : Nat) (placement query : Caller (Cached PaperBook))
    (symbol : String) (orders : List Order) : Prop :=
  ∃ read fetch store, ⟨.openOrders symbol, .done (.ok (.listed orders)), [read, fetch, store]⟩ ∈ shared.callers ∧
    ∃ forget count entry look, placement.ran = [forget, count, entry] ∧ query.ran = [look] ∧
      fetch.position < entry.position ∧ forget.position < store.position ∧ store.position < look.position ∧
      look.clock - store.clock < ttl

variable {script : PaperScript} {ttl : Nat}

/-- An order that a placement has returned, and that the venue shows, is among the answer to every later query for its
symbol, unless somebody has started to cancel it, or the answer comes from a query that overlapped with the placement. -/
theorem later_query_shows_order (script : PaperScript) (ttl clock : Nat) (before schedule : List Move)
    {placement query : Caller (Cached PaperBook)} {leg : OrderLeg} {order : Order} {orders : List Order}
    (reads : ReadsAfter (script.venue.cached ttl)
      ((fresh clock (.ofInner .empty)).run (script.venue.cached ttl) before) schedule placement query leg order orders)
    (shown : order.IsShown) :
    let now := ((fresh clock (.ofInner .empty)).run (script.venue.cached ttl) before).run (script.venue.cached ttl) schedule
    order ∈ orders ∨ now.Cancelling order.id ∨ now.Stale ttl placement query leg.symbol orders := by
  intro now
  have soundBefore := run_sound script ttl clock before
  have sound : now.Sound script ttl := run_induction soundBefore (fun _ move sound => sound.move move) schedule
  obtain ⟨request, rest, ran⟩ := placement
  obtain ⟨request', rest', ran'⟩ := query
  obtain ⟨member, rfl, rfl, ⟨index, started, found⟩, rfl, rfl⟩ := reads
  have since := (ranSince_run (script.venue.cached ttl) _ schedule).since index _ started found
  have placed := mem_run_of_ended (script.venue.cached ttl) member ⟨_, rfl⟩ schedule
  cases sound.stands _ placed with
  | settled _ _ forget count entry _ =>
    have entered := soundBefore.ranBefore _ member entry (by simp)
    have forgot := soundBefore.ranBefore _ member forget (by simp)
    cases sound.stands _ (List.mem_of_getElem? found) with
    | stored _ _ read fetch store complete =>
      have later := since fetch (by simp)
      exact (complete leg order forget count entry placed rfl shown (by omega)).imp_right .inl
    | hit _ _ look clock fresh source =>
      have later := since look (by simp)
      obtain ⟨read, fetch, store, reader, rfl, stored, undisturbed⟩ := source
      cases sound.stands _ reader with
      | stored _ _ _ _ _ complete =>
        rcases Nat.lt_or_ge fetch.position entry.position with overlaps | apart
        · exact .inr (.inr ⟨read, fetch, store, reader, forget, count, entry, look, rfl, rfl, overlaps,
            undisturbed leg _ forget _ placed rfl (by omega), stored, fresh⟩)
        · exact (complete leg order forget count entry placed rfl shown apart).imp_right .inl

/-- Buy one share. -/
def oneShare : OrderLeg :=
  Venue.marketLeg "ACME" 1.0 .buy

/-- A query, then a placement, then a query, one after another. -/
def oneByOne : List Move :=
  [.start (.openOrders "ACME"), .proceed 0, .proceed 0, .proceed 0,
    .start (.place oneShare), .proceed 1, .proceed 1, .proceed 1]

def askTwice : List Move :=
  [.start (.openOrders "ACME"), .proceed 2, .proceed 2, .proceed 2]

/-- The order that the placement of one share leads to. -/
def firstOrder (status : OrderStatus) : Order :=
  .ofLeg "paper-1" oneShare status

theorem askTwice_reads : ReadsAfter (PaperScript.plain.venue.cached 2000)
    ((fresh 0 (.ofInner .empty)).run (PaperScript.plain.venue.cached 2000) oneByOne) askTwice
    ⟨.place oneShare, .done (.ok (.placed (firstOrder .working))), [⟨3, 0⟩, ⟨4, 0⟩, ⟨5, 0⟩]⟩
    ⟨.openOrders "ACME", .done (.ok (.listed [firstOrder .working])), [⟨6, 0⟩, ⟨7, 0⟩, ⟨8, 0⟩]⟩ oneShare
    (firstOrder .working) [firstOrder .working] := by
  have listed : (PaperBook.mk 1 [firstOrder .working]).openOrders "ACME" = [firstOrder .working] := by
    decide +kernel
  refine ⟨List.mem_of_getElem? (i := 1) rfl, rfl, rfl, ⟨2, by decide, ?_⟩, rfl, rfl⟩
  rw [← listed]
  rfl

/-- The second query does not come from the cache, although the first has just remembered that there are no orders. -/
theorem placement_between_queries_shown :
    let query : Caller (Cached PaperBook) :=
      ⟨.openOrders "ACME", .done (.ok (.listed [firstOrder .working])), [⟨6, 0⟩, ⟨7, 0⟩, ⟨8, 0⟩]⟩
    let placement : Caller (Cached PaperBook) :=
      ⟨.place oneShare, .done (.ok (.placed (firstOrder .working))), [⟨3, 0⟩, ⟨4, 0⟩, ⟨5, 0⟩]⟩
    let between := (fresh 0 (.ofInner .empty)).run (PaperScript.plain.venue.cached 2000) oneByOne
    let now := between.run (PaperScript.plain.venue.cached 2000) askTwice
    ReadsAfter (PaperScript.plain.venue.cached 2000) between askTwice placement query oneShare (firstOrder .working)
        [firstOrder .working] ∧
      (firstOrder .working).IsShown ∧
      (firstOrder .working ∈ [firstOrder .working] ∨ now.Cancelling (firstOrder .working).id ∨
        now.Stale 2000 placement query "ACME" [firstOrder .working]) :=
  ⟨askTwice_reads, rfl, later_query_shows_order .plain 2000 0 oneByOne askTwice askTwice_reads rfl⟩

/-- Whatever a placement has returned is among the answer to every later query for its symbol, unless somebody has
started to cancel it. -/
def ReadsWrites (script : PaperScript) (ttl : Nat) : Prop :=
  ∀ clock before schedule placement query leg order orders,
    let venue := script.venue.cached ttl
    let now := (fresh clock (.ofInner .empty)).run venue before
    ReadsAfter venue now schedule placement query leg order orders →
      order ∈ orders ∨ (now.run venue schedule).Cancelling order.id

/-- The placement makes the cache forget its symbol when the query has read the book and has not remembered it yet. -/
def overlapping : List Move :=
  [.start (.openOrders "ACME"), .proceed 0, .proceed 0, .start (.place oneShare), .proceed 1, .proceed 0,
    .proceed 1, .proceed 1]

/-- The venue turns orders down after it has accepted their placement. -/
def turningDown : PaperScript :=
  { PaperScript.plain with accepted := .rejected }

theorem cancelling_iff {shared : Shared (Cached PaperBook)} {id : String} :
    shared.Cancelling id ↔ .cancel id ∈ shared.callers.map Caller.request :=
  List.mem_map.symm

/-- Neither what overlaps with a query is always read, nor what the venue does not show. -/
theorem placed_orders_missing : ¬ReadsWrites .plain 2000 ∧ ¬ReadsWrites turningDown 2000 := by
  constructor
  · intro always
    have reads : ReadsAfter (PaperScript.plain.venue.cached 2000)
        ((fresh 0 (.ofInner .empty)).run (PaperScript.plain.venue.cached 2000) overlapping)
        [.start (.openOrders "ACME"), .proceed 2]
        ⟨.place oneShare, .done (.ok (.placed (firstOrder .working))), [⟨2, 0⟩, ⟨4, 0⟩, ⟨5, 0⟩]⟩
        ⟨.openOrders "ACME", .done (.ok (.listed [])), [⟨6, 0⟩]⟩ oneShare (firstOrder .working) [] :=
      ⟨List.mem_of_getElem? (i := 1) rfl, rfl, rfl, ⟨2, by decide, rfl⟩, rfl, rfl⟩
    rcases always _ _ _ _ _ _ _ _ reads with shown | cancelling
    · contradiction
    · have asked : Request.cancel _ ∈ [Request.openOrders "ACME", .place oneShare, .openOrders "ACME"] :=
        cancelling_iff.mp cancelling
      simp at asked
  · intro always
    have reads : ReadsAfter (turningDown.venue.cached 2000)
        ((fresh 0 (.ofInner .empty)).run (turningDown.venue.cached 2000)
          [.start (.place oneShare), .proceed 0, .proceed 0, .proceed 0])
        [.start (.openOrders "ACME"), .proceed 1, .proceed 1, .proceed 1]
        ⟨.place oneShare, .done (.ok (.placed (firstOrder .rejected))), [⟨0, 0⟩, ⟨1, 0⟩, ⟨2, 0⟩]⟩
        ⟨.openOrders "ACME", .done (.ok (.listed [])), [⟨3, 0⟩, ⟨4, 0⟩, ⟨5, 0⟩]⟩ oneShare
        (firstOrder .rejected) [] :=
      ⟨List.mem_of_getElem? (i := 0) rfl, rfl, rfl, ⟨1, by decide, rfl⟩, rfl, rfl⟩
    rcases always _ _ _ _ _ _ _ _ reads with shown | cancelling
    · contradiction
    · have asked : Request.cancel _ ∈ [Request.place oneShare, .openOrders "ACME"] := cancelling_iff.mp cancelling
      simp at asked

end Shared

end TradingStrategy

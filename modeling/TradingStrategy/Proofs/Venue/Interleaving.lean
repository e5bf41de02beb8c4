import TradingStrategy.Proofs.Venue.Journal

/-!
Calls at the same time.

Owns:
- a venue that several callers share, and schedules: which caller runs its next section, and where time passes;
- what a move leaves as it was: calls that have ended, every request, and the sections that have run;
- that the sections of a later call run later.

A section runs at one moment and alone. How long a caller sleeps in front of its next section is left to the schedule,
and so is whether it goes on at all.
-/

namespace TradingStrategy

variable {σ α : Type}

/-- What a caller is told. -/
inductive Answer where
  | placed (order : Order)
  | cancelled
  | listed (orders : List Order)
deriving DecidableEq

/-- A call whose value is told to a caller. -/
def Call.told (call : Call σ α) (tell : α → Answer) : Call σ Answer :=
  call.andThen fun value => .done (.ok (tell value))

/-- The next section of a call, behind its pauses, and how the call goes on. -/
def Call.next? : Call σ α → Option ((Nat → σ → σ) × (Nat → σ → Call σ α))
  | done _ => none
  | pause _ rest => rest.next?
  | step update next => some (update, next)

/-- The call that a request makes. -/
def Venue.call (venue : Venue σ) : Request → Call σ Answer
  | .place leg => (venue.place leg).told .placed
  | .cancel id => (venue.cancel id).told fun _ => .cancelled
  | .openOrders symbol => (venue.openOrders symbol).told .listed

/-- When a section ran: the number of sections before it, of whatever call, and the time. -/
structure Moment where
  position : Nat
  clock : Nat
deriving DecidableEq

/-- A call under way: its request, what is left of it, and when its sections ran, oldest first. -/
structure Caller (σ : Type) where
  request : Request
  rest : Call σ Answer
  ran : List Moment

def Caller.HasEnded (caller : Caller σ) : Prop :=
  ∃ answer, caller.rest = .done answer

theorem Caller.not_ended {caller : Caller σ} {following : (Nat → σ → σ) × (Nat → σ → Call σ Answer)}
    (goes : caller.rest.next? = some following) : ¬caller.HasEnded := by
  rintro ⟨answer, ended⟩
  rw [ended] at goes
  contradiction

/-- A venue that callers share, and the number of sections that have run. -/
structure Shared (σ : Type) where
  clock : Nat
  sections : Nat
  venue : σ
  callers : List (Caller σ)

/-- A move of a schedule. Callers are counted from zero in the order in which they start. -/
inductive Move where
  | start (request : Request)
  | proceed (index : Nat)
  | wait (milliseconds : Nat)

namespace Shared

/-- A venue that nobody has called yet. -/
def fresh (clock : Nat) (venue : σ) : Shared σ :=
  ⟨clock, 0, venue, []⟩

/-- A caller at a position runs a section that leaves the venue as `venue` and the call as `rest`. -/
def advance (shared : Shared σ) (index : Nat) (caller : Caller σ) (venue : σ) (rest : Call σ Answer) : Shared σ :=
  { shared with
    sections := shared.sections + 1
    venue := venue
    callers := shared.callers.set index
      ⟨caller.request, rest, caller.ran ++ [⟨shared.sections, shared.clock⟩]⟩ }

/-- A call that has ended does not proceed. -/
def move (venue : Venue σ) (shared : Shared σ) : Move → Shared σ
  | .start request => { shared with callers := shared.callers ++ [⟨request, venue.call request, []⟩] }
  | .proceed index =>
      match shared.callers[index]? with
      | none => shared
      | some caller =>
          match caller.rest.next? with
          | none => shared
          | some (update, next) =>
              shared.advance index caller (update shared.clock shared.venue) (next shared.clock shared.venue)
  | .wait milliseconds => { shared with clock := shared.clock + milliseconds }

def run (venue : Venue σ) (shared : Shared σ) (schedule : List Move) : Shared σ :=
  schedule.foldl (move venue) shared

/-- Somebody has started to cancel an order. -/
def Cancelling (shared : Shared σ) (id : String) : Prop :=
  ∃ caller ∈ shared.callers, caller.request = .cancel id

/-- What may change from one moment to a later one: calls start, and calls that have not ended run further sections. -/
structure Continues (shared later : Shared σ) : Prop where
  sections : shared.sections ≤ later.sections
  ended : ∀ caller ∈ shared.callers, caller.HasEnded → caller ∈ later.callers
  requests : ∀ caller ∈ shared.callers, ∃ same ∈ later.callers, same.request = caller.request
  origin : ∀ caller ∈ later.callers, caller ∈ shared.callers ∨ caller.ran = [] ∨
    ∃ before ∈ shared.callers, ∃ now : Moment,
      caller.request = before.request ∧ caller.ran = before.ran ++ [now] ∧
        now.position = shared.sections ∧ shared.sections < later.sections

variable {venue : Venue σ} {shared later : Shared σ}

theorem Continues.cancelling (continues : shared.Continues later) {id : String} (cancelling : shared.Cancelling id) :
    later.Cancelling id := by
  obtain ⟨caller, member, asked⟩ := cancelling
  obtain ⟨same, sameMember, sameRequest⟩ := continues.requests caller member
  exact ⟨same, sameMember, sameRequest.trans asked⟩

theorem continues_of_callers_eq (same : later.callers = shared.callers) (sections : shared.sections ≤ later.sections) :
    shared.Continues later where
  sections := sections
  ended _ member _ := same ▸ member
  requests caller member := ⟨caller, same ▸ member, rfl⟩
  origin _ member := .inl (same ▸ member)

theorem start_continues (shared : Shared σ) (venue : Venue σ) (request : Request) :
    shared.Continues (shared.move venue (.start request)) where
  sections := Nat.le_refl _
  ended _ member _ := List.mem_append_left _ member
  requests caller member := ⟨caller, List.mem_append_left _ member, rfl⟩
  origin caller member := by
    rcases List.mem_append.mp member with member | member
    · exact .inl member
    · exact .inr (.inl (by rw [List.mem_singleton.mp member]))

theorem advance_continues {index : Nat} {caller : Caller σ} (found : shared.callers[index]? = some caller)
    (running : ¬caller.HasEnded) (state : σ) (rest : Call σ Answer) :
    shared.Continues (shared.advance index caller state rest) := by
  obtain ⟨inside, isCaller⟩ := List.getElem?_eq_some_iff.mp found
  have changed : ∀ other ∈ shared.callers, other ≠ caller →
      other ∈ (shared.advance index caller state rest).callers := by
    intro other member different
    obtain ⟨position, bound, isOther⟩ := List.mem_iff_getElem.mp member
    have apart : index ≠ position := by
      rintro rfl
      exact different (isOther.symm.trans isCaller)
    exact List.mem_iff_getElem.mpr
      ⟨position, by simpa [advance] using bound, by simp [advance, List.getElem_set_ne apart, isOther]⟩
  refine ⟨Nat.le_succ _, ?ended, ?requests, ?origin⟩
  case ended =>
    intro other member hasEnded
    apply changed other member
    rintro rfl
    exact running hasEnded
  case requests =>
    intro other member
    by_cases same : other = caller
    · exact ⟨_, List.mem_set inside _, by rw [same]⟩
    · exact ⟨other, changed other member same, rfl⟩
  case origin =>
    intro other member
    rcases List.mem_or_eq_of_mem_set member with member | rfl
    · exact .inl member
    · exact .inr (.inr ⟨caller, isCaller ▸ List.getElem_mem inside, _, rfl, rfl, rfl, Nat.lt_succ_self _⟩)

/-- What a caller does that proceeds: nothing, or its next section. -/
theorem proceed_cases (venue : Venue σ) (shared : Shared σ) (index : Nat) :
    shared.move venue (.proceed index) = shared ∨
      ∃ caller update next, shared.callers[index]? = some caller ∧ caller.rest.next? = some (update, next) ∧
        shared.move venue (.proceed index) =
          shared.advance index caller (update shared.clock shared.venue) (next shared.clock shared.venue) := by
  match found : shared.callers[index]? with
  | none => exact .inl (by simp only [move, found])
  | some caller =>
    match goes : caller.rest.next? with
    | none => exact .inl (by simp only [move, found, goes])
    | some (update, next) => exact .inr ⟨caller, update, next, rfl, goes, by simp only [move, found, goes]⟩

theorem move_continues (venue : Venue σ) (shared : Shared σ) (move : Move) :
    shared.Continues (shared.move venue move) := by
  cases move with
  | start request => exact start_continues shared venue request
  | wait milliseconds => exact continues_of_callers_eq rfl (Nat.le_refl _)
  | proceed index =>
    obtain same | ⟨caller, update, next, found, goes, proceeds⟩ := proceed_cases venue shared index
    · rw [same]
      exact continues_of_callers_eq rfl (Nat.le_refl _)
    · rw [proceeds]
      exact advance_continues found (Caller.not_ended goes) _ _

/-- What every move keeps holds at every moment of a schedule. -/
theorem run_induction {motive : Shared σ → Prop} (start : motive shared)
    (keeps : ∀ shared move, motive shared → motive (Shared.move venue shared move)) (schedule : List Move) :
    motive (shared.run venue schedule) := by
  induction schedule generalizing shared with
  | nil => exact start
  | cons first rest inductionHypothesis => exact inductionHypothesis (keeps shared first start)

theorem mem_run_of_ended (venue : Venue σ) {caller : Caller σ} (member : caller ∈ shared.callers) (ended : caller.HasEnded)
    (schedule : List Move) : caller ∈ (shared.run venue schedule).callers :=
  run_induction (motive := fun now => caller ∈ now.callers) member
    (fun now move present => (move_continues venue now move).ended caller present ended) schedule

/-- Every section has run before now. -/
def RanBefore (shared : Shared σ) : Prop :=
  ∀ caller ∈ shared.callers, ∀ moment ∈ caller.ran, moment.position < shared.sections

theorem Continues.ranBefore (continues : shared.Continues later) (before : shared.RanBefore) : later.RanBefore := by
  intro caller member moment ran
  obtain same | unmoved | ⟨old, oldMember, now, -, ranNow, isNow, later⟩ := continues.origin caller member
  · exact Nat.lt_of_lt_of_le (before caller same moment ran) continues.sections
  · rw [unmoved] at ran
    contradiction
  · rw [ranNow] at ran
    rcases List.mem_append.mp ran with ran | ran
    · exact Nat.lt_of_lt_of_le (before old oldMember moment ran) continues.sections
    · rw [List.mem_singleton.mp ran, isNow]
      exact later

/-- The callers from an index on have run nothing in front of a position. -/
structure RanSince (shared : Shared σ) (index position : Nat) : Prop where
  sections : position ≤ shared.sections
  started : index ≤ shared.callers.length
  since : ∀ other caller, index ≤ other → shared.callers[other]? = some caller →
    ∀ moment ∈ caller.ran, position ≤ moment.position

theorem RanSince.move {index position : Nat} (since : shared.RanSince index position) (move : Move) :
    (shared.move venue move).RanSince index position := by
  cases move with
  | wait milliseconds => exact ⟨since.sections, since.started, since.since⟩
  | start request =>
    refine ⟨since.sections, ?_, ?_⟩
    · simp only [Shared.move, List.length_append]
      exact Nat.le_add_right_of_le since.started
    · intro other caller behind found
      simp only [Shared.move, List.getElem?_append] at found
      split at found
      · exact since.since other caller behind found
      · have isNew := List.mem_singleton.mp (List.mem_of_getElem? found)
        simp [isNew]
  | proceed index' =>
    obtain same | ⟨caller, update, next, found, goes, proceeds⟩ := proceed_cases venue shared index'
    · rw [same]
      exact since
    · rw [proceeds]
      refine ⟨Nat.le_succ_of_le since.sections, by simpa [advance] using since.started, ?_⟩
      intro other caller' behind found' moment ran
      simp only [advance, List.getElem?_set] at found'
      split at found'
      · next same =>
        subst same
        split at found'
        · rw [← Option.some.inj found'] at ran
          rcases List.mem_append.mp ran with ran | ran
          · exact since.since _ caller behind found moment ran
          · rw [List.mem_singleton.mp ran]
            exact since.sections
        · contradiction
      · exact since.since other caller' behind found' moment ran

theorem ranSince_run (venue : Venue σ) (shared : Shared σ) (schedule : List Move) :
    (shared.run venue schedule).RanSince shared.callers.length shared.sections := by
  have start : shared.RanSince shared.callers.length shared.sections := by
    refine ⟨Nat.le_refl _, Nat.le_refl _, ?_⟩
    intro other caller behind found
    rw [List.getElem?_eq_none behind] at found
    contradiction
  exact run_induction (motive := fun now => now.RanSince shared.callers.length shared.sections) start
    (fun _ move since => since.move move) schedule

end Shared

end TradingStrategy

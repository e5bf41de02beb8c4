import TradingStrategy.Proofs.Engine.Mirrored
import TradingStrategy.Proofs.Run.Lifecycle

/-!
Strategies that share a venue.

Owns:
- `Desk`: engines that process their bars one at a time at one venue, in any interleaving;
- `Desk.Agrees`: every engine is where it would be at a venue of its own, under names that are its own;
- `shared_venue_isolates`: compiled strategies that share an unhindered paper venue do not affect one another.

There may be any number of engines, and several may trade the same symbol. They get their ids from one counter, so an
engine's orders have other names than they would have at a venue of its own, and this is all that differs.
-/

namespace TradingStrategy

variable {ι σ : Type}

/-- The engines of a desk, by their members, and the venue that they share. -/
structure Desk (ι σ : Type) where
  states : ι → EngineState
  world : World σ

/-- The bars of one member among those of all. -/
def barsFor [DecidableEq ι] (member : ι) (events : List (ι × Bar)) : List Bar :=
  events.filterMap fun event => if event.1 = member then some event.2 else none

namespace Desk

def start (engines : ι → Engine) (world : World σ) : Desk ι σ :=
  ⟨fun member => (engines member).startState, world⟩

/-- The turn of a member on a bar. -/
def turn (engines : ι → Engine) (venue : Venue σ) (desk : Desk ι σ) (member : ι) (bar : Bar) : Turn σ :=
  (engines member).processBar venue (desk.states member) bar desk.world

variable [DecidableEq ι]

/-- A member processes a bar, and the others wait. -/
def step (engines : ι → Engine) (venue : Venue σ) (desk : Desk ι σ) (event : ι × Bar) : Desk ι σ :=
  let turn := desk.turn engines venue event.1 event.2
  ⟨Function.update desk.states event.1 turn.state, turn.world⟩

/-- The desk after bars of its members. -/
def after (engines : ι → Engine) (venue : Venue σ) (world : World σ) (events : List (ι × Bar)) : Desk ι σ :=
  events.foldl (step engines venue) (start engines world)

variable {engines : ι → Engine} {venue : Venue σ} {world : World σ}

theorem after_snoc (events : List (ι × Bar)) (event : ι × Bar) :
    after engines venue world (events ++ [event]) = (after engines venue world events).step engines venue event := by
  rw [after, List.foldl_append]
  rfl

end Desk

theorem barsFor_snoc_self [DecidableEq ι] (events : List (ι × Bar)) (member : ι) (bar : Bar) :
    barsFor member (events ++ [(member, bar)]) = barsFor member events ++ [bar] := by
  simp [barsFor]

theorem barsFor_snoc_other [DecidableEq ι] (events : List (ι × Bar)) {member other : ι} (different : other ≠ member)
    (bar : Bar) : barsFor member (events ++ [(other, bar)]) = barsFor member events := by
  simp [barsFor, different]

namespace Desk

open PaperBook (Mirrors MirrorStep)

variable [DecidableEq ι]

/-- The run of a member at a venue of its own, on its bars of a desk. -/
def alone (engines : ι → Engine) (script : PaperScript) (clocks : ι → Nat) (events : List (ι × Bar)) (member : ι) :
    RunState PaperBook :=
  (engines member).after script.venue ⟨clocks member, .empty⟩ (barsFor member events)

/-- The desk at a paper venue whose book is empty at first. -/
def together (engines : ι → Engine) (script : PaperScript) (clock : Nat) (events : List (ι × Bar)) :
    Desk ι PaperBook :=
  after engines script.venue ⟨clock, .empty⟩ events

/-- Every member is where it would be at a venue of its own, and has been since the first bar, under names for its
orders that no other member has. -/
structure Agrees (engines : ι → Engine) (script : PaperScript) (clock : Nat) (clocks : ι → Nat)
    (events : List (ι × Bar)) (rename : ι → String → String) : Prop where
  states : ∀ front, front <+: events → ∀ member,
    (together engines script clock front).states member =
      (alone engines script clocks front member).state.renamed (rename member)
  known : ∀ front, front <+: events → ∀ member,
    (alone engines script clocks front member).state.KnownIn (alone engines script clocks events member).world.venue
  mirrors : ∀ member, Mirrors (rename member) (alone engines script clocks events member).world.venue
    (together engines script clock events).world.venue
  apart : ∀ member other, member ≠ other →
    ∀ name ∈ (alone engines script clocks events member).world.venue.names (rename member),
      name ∉ (alone engines script clocks events other).world.venue.names (rename other)

section
variable {engines : ι → Engine} {script : PaperScript} {clock : Nat} {clocks : ι → Nat} {events : List (ι × Bar)}
  {rename : ι → String → String}

theorem together_snoc (engines : ι → Engine) (script : PaperScript) (clock : Nat) (events : List (ι × Bar))
    (member : ι) (bar : Bar) :
    together engines script clock (events ++ [(member, bar)]) =
      let turn := (together engines script clock events).turn engines script.venue member bar
      ⟨Function.update (together engines script clock events).states member turn.state, turn.world⟩ :=
  after_snoc events (member, bar)

theorem alone_snoc_self (engines : ι → Engine) (script : PaperScript) (clocks : ι → Nat) (events : List (ι × Bar))
    (member : ι) (bar : Bar) :
    alone engines script clocks (events ++ [(member, bar)]) member =
      (engines member).runStep script.venue (alone engines script clocks events member) bar := by
  rw [alone, barsFor_snoc_self, Engine.after_snoc]
  rfl

theorem alone_snoc_other (engines : ι → Engine) (script : PaperScript) (clocks : ι → Nat) (events : List (ι × Bar))
    {member other : ι} (different : other ≠ member) (bar : Bar) :
    alone engines script clocks (events ++ [(other, bar)]) member = alone engines script clocks events member := by
  rw [alone, barsFor_snoc_other events different]
  rfl

/-! ### Every interleaving -/

theorem agrees_start (engines : ι → Engine) (script : PaperScript) (clock : Nat) (clocks : ι → Nat) :
    Agrees engines script clock clocks [] fun _ => id where
  states front isPrefix member := by
    obtain rfl := List.prefix_nil.mp isPrefix
    rfl
  known front isPrefix member id mentioned := by
    obtain rfl := List.prefix_nil.mp isPrefix
    exact absurd mentioned List.not_mem_nil
  mirrors member := by
    have empty : PaperBook.empty.Numbered := rfl
    exact ⟨empty, empty, rfl⟩
  apart member other different name named := absurd named List.not_mem_nil

variable {blueprints : ι → Blueprint} (follows : ∀ member, (engines member).strategy.Follows (blueprints member))
  (live : ∀ member, (engines member).options.environment.dryRun = false)
  (parts : ∀ member, ∀ target ∈ (blueprints member).plan.targets, IsPart target.ratio)
  (unhindered : script.IsUnhindered)
include follows live parts unhindered

/-- The next bar of a member, at the desk and at a venue of its own. -/
theorem Agrees.turn (agrees : Agrees engines script clock clocks events rename) (member : ι) (bar : Bar) :
    ∃ extended after,
      MirrorStep (rename member) (alone engines script clocks events member).world.venue
        (together engines script clock events).world.venue extended
        (alone engines script clocks (events ++ [(member, bar)]) member).world.venue after.venue ∧
      (alone engines script clocks (events ++ [(member, bar)]) member).state.KnownIn
        (alone engines script clocks (events ++ [(member, bar)]) member).world.venue ∧
      (together engines script clock events).turn engines script.venue member bar =
        ⟨((engines member).turnAfter script.venue ⟨clocks member, .empty⟩ (barsFor member events) bar).result,
          (alone engines script clocks (events ++ [(member, bar)]) member).state.renamed extended, after⟩ := by
  have holds : (alone engines script clocks events member).state.Holds (blueprints member) :=
    Engine.after_holds (follows member) _ _ _
  have processes : Engine.Processes (engines member) (blueprints member) script.venue
      (alone engines script clocks events member).state bar (alone engines script clocks events member).world _ :=
    Engine.processBar_processes (follows member) holds bar
  rw [alone_snoc_self, Desk.turn, agrees.states events List.prefix_rfl member]
  exact processes.mirrored unhindered (live member) (parts member) holds (follows member) (agrees.mirrors member)
    (agrees.known events List.prefix_rfl member)

/-- The names of the member are extended, and what was known keeps its name. The orders of the others stay. -/
theorem Agrees.snoc (agrees : Agrees engines script clock clocks events rename) (member : ι) (bar : Bar) :
    ∃ extended, Agrees engines script clock clocks (events ++ [(member, bar)])
      (Function.update rename member extended) := by
  obtain ⟨extended, after, step, knownAfter, turned⟩ := agrees.turn follows live parts unhindered member bar
  have shared : together engines script clock (events ++ [(member, bar)]) =
      ⟨Function.update (together engines script clock events).states member
        ((alone engines script clocks (events ++ [(member, bar)]) member).state.renamed extended), after⟩ := by
    rw [together_snoc, turned]
  have others (other : ι) (different : other ≠ member) :
      Function.update rename member extended other = rename other ∧
        alone engines script clocks (events ++ [(member, bar)]) other = alone engines script clocks events other :=
    ⟨Function.update_of_ne different .., alone_snoc_other engines script clocks events different.symm bar⟩
  have own : Function.update rename member extended member = extended := Function.update_self ..
  refine ⟨extended, ?states, ?known, ?mirrors, ?apart⟩
  case states =>
    intro front isPrefix other
    rcases List.prefix_concat_iff.mp isPrefix with rfl | earlier
    · rw [shared]
      dsimp only
      rcases eq_or_ne other member with rfl | different
      · rw [Function.update_self, own]
      · rw [Function.update_of_ne different, (others other different).1, (others other different).2]
        exact agrees.states events List.prefix_rfl other
    · rw [agrees.states front earlier other]
      rcases eq_or_ne other member with rfl | different
      · rw [own, (agrees.known front earlier other).renamed_eq step.grown]
      · rw [(others other different).1]
  case known =>
    intro front isPrefix other
    rcases List.prefix_concat_iff.mp isPrefix with rfl | earlier
    · rcases eq_or_ne other member with rfl | different
      · exact knownAfter
      · rw [(others other different).2]
        exact agrees.known events List.prefix_rfl other
    · rcases eq_or_ne other member with rfl | different
      · exact (agrees.known front earlier other).grown step.grown
      · rw [(others other different).2]
        exact agrees.known front earlier other
  case mirrors =>
    intro other
    rw [shared]
    rcases eq_or_ne other member with rfl | different
    · rw [own]
      exact step.mirrors
    · rw [(others other different).1, (others other different).2]
      exact (agrees.mirrors other).untouched step.touches (agrees.apart other member different)
  case apart =>
    -- A new name is not in the shared book yet, and all names of the others are.
    have fresh (other : ι) (different : other ≠ member) :
        ∀ name ∈ (alone engines script clocks (events ++ [(member, bar)]) member).world.venue.names extended,
          name ∉ (alone engines script clocks events other).world.venue.names (rename other) := by
      intro name named otherNamed
      rcases step.fresh name named with before | new
      · exact agrees.apart member other different.symm name before otherNamed
      · exact new ((agrees.mirrors other).names_subset otherNamed)
    intro first second different name named secondNamed
    rcases eq_or_ne first member with rfl | firstOther
    · rw [(others second different.symm).1, (others second different.symm).2] at secondNamed
      rw [own] at named
      exact fresh second different.symm name named secondNamed
    · rw [(others first firstOther).1, (others first firstOther).2] at named
      rcases eq_or_ne second member with rfl | secondOther
      · rw [own] at secondNamed
        exact fresh first firstOther name secondNamed named
      · rw [(others second secondOther).1, (others second secondOther).2] at secondNamed
        exact agrees.apart first second different name named secondNamed

theorem agrees (events : List (ι × Bar)) : ∃ rename, Agrees engines script clock clocks events rename := by
  induction events using List.reverseRecOn with
  | nil => exact ⟨_, agrees_start engines script clock clocks⟩
  | append_singleton events event inductionHypothesis =>
    obtain ⟨rename, agrees⟩ := inductionHypothesis
    obtain ⟨extended, agrees⟩ := agrees.snoc follows live parts unhindered event.1 event.2
    exact ⟨_, agrees⟩

end

/-- The members of a desk do not affect one another. Every bar has the result that it has at a venue of the member's
own, and all states since the first bar are those at such a venue, but for the names of orders. -/
structure Isolated (engines : ι → Engine) (script : PaperScript) (clock : Nat) (clocks : ι → Nat)
    (events : List (ι × Bar)) : Prop where
  result : ∀ member bar,
    ((together engines script clock events).turn engines script.venue member bar).result =
      ((engines member).turnAfter script.venue ⟨clocks member, .empty⟩ (barsFor member events) bar).result
  /-- One renaming for each member serves for all states, and it tells the member's orders apart. -/
  naming : ∃ rename, Agrees engines script clock clocks events rename ∧
    ∀ member, ((alone engines script clocks events member).world.venue.names (rename member)).Nodup
  /-- The runtime variables of every member have been the same at all times. -/
  bindings : ∀ front, front <+: events → ∀ member,
    ((together engines script clock front).states member).bindings =
      (alone engines script clocks front member).state.bindings

end Desk

/-- Over every interleaving of their bars, compiled strategies that share an unhindered paper venue do not affect one
another. There may be any number of them, for equal and for different symbols, each compiled with a registry of its own.
The book is empty at first. -/
theorem shared_venue_isolates [DecidableEq ι] {engines : ι → Engine}
    (compiled : ∀ member, ∃ registry json, Strategy.ofDocument registry json = .ok (engines member).strategy)
    (live : ∀ member, (engines member).options.environment.dryRun = false) {script : PaperScript}
    (unhindered : script.IsUnhindered) (clock : Nat) (clocks : ι → Nat) (events : List (ι × Bar)) :
    Desk.Isolated engines script clock clocks events := by
  have blueprint (member : ι) : ∃ blueprint : Blueprint, (engines member).strategy.Follows blueprint ∧
      ∀ target ∈ blueprint.plan.targets, IsPart target.ratio := by
    obtain ⟨registry, json, compiled⟩ := compiled member
    obtain ⟨blueprint, follows, first, _⟩ := Strategy.ofDocument_first compiled
    exact ⟨blueprint, follows, Strategy.ofDocument_parts compiled blueprint.plan (List.mem_of_head? first)⟩
  choose blueprints follows parts using blueprint
  have agreed : ∃ rename, Desk.Agrees engines script clock clocks events rename :=
    Desk.agrees follows live parts unhindered events
  obtain ⟨rename, agrees⟩ := agreed
  refine ⟨?result, ⟨rename, agrees, fun member => (agrees.mirrors member).nodup⟩, ?bindings⟩
  case result =>
    intro member bar
    obtain ⟨extended, after, _, _, turned⟩ := agrees.turn follows live parts unhindered member bar
    rw [turned]
  case bindings =>
    intro front isPrefix member
    rw [agrees.states front isPrefix member]
    rfl

/-- Two members take turns on four of the turning bars. -/
def alternatingBars : List (Bool × Bar) :=
  (turningBars.take 4).flatMap fun bar => [(false, bar), (true, bar)]

set_option maxRecDepth 100000 in
/-- Two breakout strategies trade the same symbol. The second one gets the ids behind those of the first one, and each
cancels its own entry only. -/
theorem alternating_breakouts_isolated :
    ∃ strategy engine, Strategy.ofDocument .empty breakoutDocument = .ok strategy ∧
      Engine.ofStrategy strategy .empty liveOptions = .ok engine ∧
      PaperScript.plain.IsUnhindered ∧
      Desk.Isolated (fun _ => engine) PaperScript.plain 0 (fun _ => 0) alternatingBars ∧
      ((Desk.together (fun _ => engine) PaperScript.plain 0 alternatingBars).states true).orders.map Order.id =
        ["paper-4", "paper-5", "paper-6"] ∧
      (Desk.alone (fun _ => engine) PaperScript.plain (fun _ => 0) alternatingBars true).state.orders.map Order.id =
        ["paper-1", "paper-2", "paper-3"] ∧
      (Desk.together (fun _ => engine) PaperScript.plain 0 alternatingBars).world.venue.orders.map Order.status =
        [.cancelled, .working, .working, .cancelled, .working, .working] := by
  have passed : Engine.passes .empty breakoutDocument liveOptions (fun engine => decide <|
      ((Desk.together (fun _ => engine) PaperScript.plain 0 alternatingBars).states true).orders.map Order.id =
          ["paper-4", "paper-5", "paper-6"] ∧
        (Desk.alone (fun _ => engine) PaperScript.plain (fun _ => 0) alternatingBars true).state.orders.map Order.id =
          ["paper-1", "paper-2", "paper-3"] ∧
        (Desk.together (fun _ => engine) PaperScript.plain 0 alternatingBars).world.venue.orders.map Order.status =
          [.cancelled, .working, .working, .cancelled, .working, .working]) = true := by decide +kernel
  obtain ⟨strategy, engine, compiled, bound, ids⟩ := Engine.passes_binds passed
  obtain ⟨sameStrategy, sameOptions⟩ := Engine.ofStrategy_keeps bound
  have unhindered := PaperScript.plain_unhindered
  refine ⟨strategy, engine, compiled, bound, unhindered, ?_, of_decide_eq_true ids⟩
  exact shared_venue_isolates (fun _ => ⟨.empty, breakoutDocument, sameStrategy.symm ▸ compiled⟩)
    (fun _ => sameOptions.symm ▸ rfl) unhindered 0 (fun _ => 0) alternatingBars

end TradingStrategy

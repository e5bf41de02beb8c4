import TradingStrategy.Venue.Fault

/-!
Calls to a venue.

Owns:
- a call as a sequence of atomic sections on the state of a venue, with pauses between them and an answer at the end;
- the run of a call on a clock that only pauses advance, to its end or up to a deadline.

A call that is cut off at a deadline has done what stands in front of the pause that it does not survive, and nothing
behind it. Because its sections are apart from each other, calls can also be interleaved.
-/

namespace TradingStrategy

/-- A call on a venue whose state is `σ`. A section sees the clock and the state, replaces the state, and says how the
call goes on. -/
inductive Call (σ α : Type) where
  | done (answer : Except VenueError α)
  | pause (milliseconds : Nat) (rest : Call σ α)
  | step (update : Nat → σ → σ) (next : Nat → σ → Call σ α)

/-- The state of a venue and the clock, in milliseconds. -/
structure World (σ : Type) where
  clock : Nat
  venue : σ
deriving Repr, DecidableEq

namespace Call

variable {σ τ α β : Type}

/-- Runs a call to its end. -/
def finish : Call σ α → World σ → Except VenueError α × World σ
  | done answer, world => (answer, world)
  | pause milliseconds rest, world => rest.finish { world with clock := world.clock + milliseconds }
  | step update next, world =>
      (next world.clock world.venue).finish { world with venue := update world.clock world.venue }

/-- Runs a call up to a deadline. A pause that ends after the deadline cuts the call off there. -/
def within (deadline : Nat) : Call σ α → World σ → Option (Except VenueError α) × World σ
  | done answer, world => (some answer, world)
  | pause milliseconds rest, world =>
      if world.clock + milliseconds ≤ deadline then
        rest.within deadline { world with clock := world.clock + milliseconds }
      else (none, { world with clock := deadline })
  | step update next, world =>
      (next world.clock world.venue).within deadline { world with venue := update world.clock world.venue }

/-- Goes on with the value of a call; an error ends both. -/
def andThen : Call σ α → (α → Call σ β) → Call σ β
  | done (.ok value), next => next value
  | done (.error error), _ => done (.error error)
  | pause milliseconds rest, next => pause milliseconds (rest.andThen next)
  | step update following, next => step update fun clock state => (following clock state).andThen next

/-- The same call on a part of a larger state. -/
def onPart (get : τ → σ) (set : σ → τ → τ) : Call σ α → Call τ α
  | done answer => done answer
  | pause milliseconds rest => pause milliseconds (rest.onPart get set)
  | step update next =>
      step (fun clock state => set (update clock (get state)) state)
        fun clock state => (next clock (get state)).onPart get set

end Call

end TradingStrategy

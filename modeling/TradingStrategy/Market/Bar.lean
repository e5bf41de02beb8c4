import TradingStrategy.Calendar.Instant
import TradingStrategy.Number.Binary

/-!
Price bars.

Owns: one sample of open, high, low, close and volume for a symbol, its typical price and its true range.
-/

namespace TradingStrategy

/-- One sample of prices and volume for a symbol. -/
structure Bar where
  symbol : String
  timestamp : Calendar.Instant
  opening : Float
  high : Float
  low : Float
  close : Float
  volume : Float
deriving Repr, DecidableEq

/-- The mean of high, low and close. -/
def typicalPrice (high low close : Float) : Float :=
  (high + low + close) / 3.0

/-- The largest of the bar's range and the distances of its ends from the close before it. -/
def trueRange (high low previousClose : Float) : Float :=
  Number.greatest (Number.greatest (high - low) (high - previousClose).abs) (low - previousClose).abs

namespace Bar

/-- The typical price of a bar. -/
def typical (bar : Bar) : Float :=
  typicalPrice bar.high bar.low bar.close

/-- The true range of a bar. -/
def range (bar : Bar) (previousClose : Float) : Float :=
  trueRange bar.high bar.low previousClose

end Bar

end TradingStrategy

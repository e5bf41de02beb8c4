/-!
Timeframes and sides.

Owns: the sizes of bars with their names and lengths, and the two sides of a trade.
-/

namespace TradingStrategy

/-- The sizes of bars. -/
inductive Timeframe where
  | minute1 | minute5 | minute15 | minute30 | hour1 | hour4 | day1
deriving Repr, DecidableEq

namespace Timeframe

/-- Every timeframe, shortest first. -/
def all : List Timeframe :=
  [minute1, minute5, minute15, minute30, hour1, hour4, day1]

def name : Timeframe → String
  | minute1 => "1m" | minute5 => "5m" | minute15 => "15m" | minute30 => "30m"
  | hour1 => "1h" | hour4 => "4h" | day1 => "1d"

/-- The length of a timeframe in minutes. -/
def minutes : Timeframe → Nat
  | minute1 => 1 | minute5 => 5 | minute15 => 15 | minute30 => 30
  | hour1 => 60 | hour4 => 240 | day1 => 1440

def ofName? (text : String) : Option Timeframe :=
  all.find? fun timeframe => timeframe.name == text

/-- The message for a text that names no timeframe. -/
def unknownMessage (text : String) : String :=
  "unknown timeframe '" ++ text ++ "', expected one of " ++ String.intercalate ", " (all.map name)

end Timeframe

/-- The side of a trade or an order. -/
inductive Side where
  | buy | sell
deriving Repr, DecidableEq

namespace Side

/-- Both sides. -/
def all : List Side :=
  [buy, sell]

def name : Side → String
  | buy => "buy"
  | sell => "sell"

def ofName? (text : String) : Option Side :=
  all.find? fun side => side.name == text

/-- The other side. -/
def opposite : Side → Side
  | buy => sell
  | sell => buy

end Side

end TradingStrategy

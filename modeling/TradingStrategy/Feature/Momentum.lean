import TradingStrategy.Feature.Average

/-!
Momentum.

Owns: the rate of change, the relative strength of gains and losses, and the convergence of two averages.
-/

namespace TradingStrategy

namespace Feature

/-- The change over some bars in per cent; from zero there is none. -/
def roc (name source : String) (period : Nat) : Feature :=
  let period := max period 1
  ⟨name, .indicator, [source], fun view =>
    let current := view.get source 0
    let base := view.get source period
    if !current.isFinite || !base.isFinite then Number.nan
    else if base == 0.0 then 0.0
    else (current - base) / base * 100.0⟩

/-- The relative strength of an average gain and an average loss, from 0 to 100. -/
def strength (gain loss : Float) : Float :=
  if !gain.isFinite || !loss.isFinite then Number.nan
  else if loss == 0.0 then 100.0
  else 100.0 - 100.0 / (1.0 + gain / loss)

/-- The relative strength index with the averages of gains and losses that it reads. -/
def rsi (name : String) (period : Nat) : List Feature :=
  let gain := name ++ "_avg_gain"
  let loss := name ++ "_avg_loss"
  [wilder gain "close_gain" period, wilder loss "close_loss" period,
    ⟨name, .indicator, [gain, loss], fun view => strength (view.get gain 0) (view.get loss 0)⟩]

/-- The difference of two features. -/
def difference (name left right : String) : Feature :=
  ⟨name, .indicator, [left, right], fun view => view.get left 0 - view.get right 0⟩

/-- The line between a fast and a slow average, its own average, and the distance of the two. -/
def macd (fast slow signal : Nat) : List Feature :=
  [difference "macd_line" ("ema_" ++ toString fast) ("ema_" ++ toString slow),
    ema "macd_signal" "macd_line" signal,
    difference "macd_histogram" "macd_line" "macd_signal"]

/-- The average of the true range. -/
def atr (name : String) (period : Nat) : Feature :=
  wilder name "true_range" period

end Feature

end TradingStrategy

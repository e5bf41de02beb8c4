import TradingStrategy.Feature.Basic

/-!
Averages and bands over windows.

Owns: the simple, weighted, exponential and Wilder averages, the standard deviation of a window, and the bands around
an average. Windows are read newest first, and sums are taken in that order.
-/

namespace TradingStrategy

namespace Feature

/-- The mean of a window of a given length. -/
def mean (period : Nat) (window : List Float) : Float :=
  sumOf window / Float.ofNat period

/-- The mean of the newest values, while they are all there and finite. -/
def windowMean (source : String) (period : Nat) (view : View) : Float :=
  match view.window? source period with
  | some window => mean period window
  | none => Number.nan

/-- The simple moving average. -/
def sma (name source : String) (period : Nat) : Feature :=
  let period := max period 1
  ⟨name, .indicator, [source], windowMean source period⟩

/-- A recursive average: it continues from its own value at the bar before, and starts from the mean of a window. -/
def recursiveAverage (name source : String) (period : Nat) (continued : Float → Float → Float) : Feature :=
  ⟨name, .indicator, [source], fun view =>
    let current := view.get source 0
    let previous := view.get name 1
    if previous.isFinite && current.isFinite then continued previous current else windowMean source period view⟩

/-- The exponential moving average. -/
def ema (name source : String) (period : Nat) : Feature :=
  let period := max period 1
  let weight := 2.0 / (Float.ofNat period + 1.0)
  recursiveAverage name source period fun previous current => current * weight + previous * (1.0 - weight)

/-- The Wilder moving average. -/
def wilder (name source : String) (period : Nat) : Feature :=
  let period := max period 1
  let count := Float.ofNat period
  recursiveAverage name source period fun previous current => (previous * (count - 1.0) + current) / count

/-- The sum of a window, newest first, with weights that fall by one from its length. -/
def weightedSum (window : List Float) : Float :=
  sumOf (window.zipIdx.map fun (value, offset) => Float.ofNat (window.length - offset) * value)

/-- The weighted moving average: the newest value has the weight of the period, the oldest the weight one. -/
def wma (name source : String) (period : Nat) : Feature :=
  let period := max period 1
  ⟨name, .indicator, [source], fun view =>
    match view.window? source period with
    | some window => weightedSum window / (Float.ofNat (period * (period + 1)) / 2.0)
    | none => Number.nan⟩

/-- The standard deviation of a whole population. -/
def populationDeviation (window : List Float) : Float :=
  let count := Float.ofNat window.length
  let center := sumOf window / count
  let squares := window.map fun value => (value - center) * (value - center)
  (sumOf squares / count).sqrt

/-- The standard deviation of the newest values. -/
def deviation (name source : String) (period : Nat) : Feature :=
  let period := max period 1
  ⟨name, .indicator, [source], fun view =>
    match view.window? source period with
    | some window => populationDeviation window
    | none => Number.nan⟩

/-- One band: the middle band and a multiple of the deviation of the close. -/
def band (name : String) (period : Nat) (multiplier : Float) : Feature :=
  ⟨name, .indicator, ["bb_middle", "close"], fun view =>
    let middle := view.get "bb_middle" 0
    match view.window? "close" period with
    | some window => if middle.isFinite then middle + multiplier * populationDeviation window else Number.nan
    | none => Number.nan⟩

/-- The middle, upper and lower band of the close. -/
def bands (period : Nat) (multiplier : Float) : List Feature :=
  let period := max period 1
  [sma "bb_middle" "close" period, band "bb_upper" period multiplier, band "bb_lower" period (-multiplier)]

end Feature

end TradingStrategy

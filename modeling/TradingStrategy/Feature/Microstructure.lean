import TradingStrategy.Feature.Average

/-!
Volume and the shape of bars.

Owns: the balance of volume, the sums and the average price of a day, ratios, and the shape of a bar against the bar
before it.
-/

namespace TradingStrategy

namespace Feature

/-- The volume of rising closes less that of falling ones. It starts with the volume of its first bar. -/
def obv : Feature :=
  ⟨"obv", .indicator, ["close", "volume"], fun view =>
    let volume := view.get "volume" 0
    match View.finite? (view.value? "obv" 1) with
    | none => volume
    | some previous =>
        let close := view.get "close" 0
        let previousClose := view.get "close" 1
        if previousClose < close then previous + volume
        else if close < previousClose then previous - volume
        else previous⟩

/-- The snapshot before the current one is of the same date. -/
def sameDay (view : View) : Bool :=
  match view.timestamp? 0, view.timestamp? 1 with
  | some now, some previous => now.day == previous.day
  | _, _ => false

/-- A sum over the bars of the current date. -/
def daySum (name : String) (term : View → Float) : Feature :=
  ⟨name, .microstructure, ["high", "low", "close", "volume"], fun view =>
    let carried := if sameDay view then (View.finite? (view.value? name 1)).getD 0.0 else 0.0
    carried + term view⟩

/-- The ratio of two features; over zero, or over what is not finite, it is no number. -/
def ratio (name numerator denominator : String) : Feature :=
  ⟨name, .microstructure, [numerator, denominator], fun view =>
    let d := view.get denominator 0
    if d == 0.0 || !d.isFinite then Number.nan else view.get numerator 0 / d⟩

/-- The average price of the current date, weighted by volume, with the two sums that it reads. -/
def vwap : List Feature :=
  [daySum "vwap_pv" fun view =>
      typicalPrice (view.get "high" 0) (view.get "low" 0) (view.get "close" 0) * view.get "volume" 0,
    daySum "vwap_volume" fun view => view.get "volume" 0,
    ratio "vwap" "vwap_pv" "vwap_volume"]

/-- A feature of the shape of the current bar. -/
def shape (name : String) (dependencies : List String) (compute : View → Float) : Feature :=
  ⟨name, .microstructure, dependencies, compute⟩

/-- The true range; at the first bar it is the range. -/
def trueRangeAt (view : View) : Float :=
  let high := view.get "high" 0
  let low := view.get "low" 0
  match view.value? "close" 1 with
  | some previousClose => trueRange high low previousClose
  | none => high - low

/-- What a change contributes: itself if it is positive, zero if not. -/
def gainPart (change : Float) : Float :=
  if change.isNaN then Number.nan else Number.greatest change 0.0

/-- The change from close to close; at the first bar there is none. -/
def closeChange (view : View) : Float :=
  view.get "close" 0 - view.get "close" 1

/-- The shapes of bars, and the volume against its own average. -/
def shapes : List Feature :=
  [shape "true_range" ["high", "low", "close"] trueRangeAt,
    shape "bar_range" ["high", "low"] fun view => view.get "high" 0 - view.get "low" 0,
    shape "body" ["open", "close"] fun view => (view.get "close" 0 - view.get "open" 0).abs,
    shape "upper_wick" ["open", "high", "low", "close"] fun view =>
      view.get "high" 0 - Number.greatest (view.get "open" 0) (view.get "close" 0),
    shape "lower_wick" ["open", "high", "low", "close"] fun view =>
      Number.least (view.get "open" 0) (view.get "close" 0) - view.get "low" 0,
    shape "gap" ["open", "close"] fun view => view.get "open" 0 - view.get "close" 1,
    shape "close_gain" ["close"] fun view => gainPart (closeChange view),
    shape "close_loss" ["close"] fun view => gainPart (-closeChange view),
    sma "volume_sma_20" "volume" 20,
    ratio "rel_volume" "volume" "volume_sma_20"]

end Feature

end TradingStrategy

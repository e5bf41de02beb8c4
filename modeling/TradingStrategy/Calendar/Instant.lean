import TradingStrategy.Calendar.Date

/-!
Instants and times of day.

Owns:
- instants, in seconds from the start of 1970 and nanoseconds, and their order;
- the date and the time of day of an instant, and its shift by minutes;
- the written forms of instants.

A leap second is the second 59 with nanoseconds from one billion on.
-/

namespace TradingStrategy.Calendar

def secondsPerDay : Int := 86400

def nanosPerSecond : Nat := 1000000000

/-- A natural number with zeros in front up to a width. -/
def padded (width n : Nat) : String :=
  let digits := toString n
  String.ofList (List.replicate (width - digits.length) '0') ++ digits

/-- A time of day: the seconds from midnight and the nanoseconds behind them. -/
structure TimeOfDay where
  second : Nat
  nanos : Nat
deriving Repr, DecidableEq

namespace TimeOfDay

/-- The time at an hour, a minute and a second. -/
def ofClock (hour minute second : Nat) : TimeOfDay :=
  ⟨hour * 3600 + minute * 60 + second, 0⟩

/-- One time is earlier than another. -/
def before (a b : TimeOfDay) : Bool :=
  a.second < b.second || (a.second == b.second && a.nanos < b.nanos)

/-- The hour and the minute with a colon between them. -/
def minuteText (time : TimeOfDay) : String :=
  padded 2 (time.second / 3600) ++ ":" ++ padded 2 (time.second / 60 % 60)

/-- The hour, the minute and the second. A leap second is the second 60. -/
def text (time : TimeOfDay) : String :=
  let last := if time.nanos < nanosPerSecond then time.second % 60 else time.second % 60 + 1
  time.minuteText ++ ":" ++ padded 2 last

end TimeOfDay

/-- An instant. -/
structure Instant where
  seconds : Int
  nanos : Nat
deriving Repr, DecidableEq, Inhabited

namespace Instant

def ofSeconds (seconds : Int) : Instant :=
  ⟨seconds, 0⟩

/-- One instant is earlier than another. -/
def before (a b : Instant) : Bool :=
  a.seconds < b.seconds || (a.seconds == b.seconds && a.nanos < b.nanos)

/-- One instant is not later than another. -/
def notAfter (a b : Instant) : Bool :=
  !b.before a

/-- The first instant whose year is in range, in seconds. -/
def minSeconds : Int :=
  (Date.mk minYear 1 1).toDays * secondsPerDay

/-- The end of the last day whose year is in range, in seconds. -/
def endSeconds : Int :=
  ((Date.mk maxYear 12 31).toDays + 1) * secondsPerDay

/-- The day of an instant, counted from 1970-01-01. -/
def day (t : Instant) : Int :=
  t.seconds / secondsPerDay

def date (t : Instant) : Date :=
  Date.ofDays t.day

def timeOfDay (t : Instant) : TimeOfDay :=
  ⟨(t.seconds % secondsPerDay).toNat, t.nanos⟩

/-- The day of the instant has a date whose year is in range. -/
def isInRange (t : Instant) : Bool :=
  minSeconds ≤ t.seconds && t.seconds < endSeconds

/-- The instant some minutes later or earlier, if it is in range. A leap second that is left forward counts as the
second 59, one that is left backward as a second of its own. -/
def shiftMinutes? (t : Instant) (minutes : Int) : Option Instant :=
  let seconds := t.seconds + minutes * 60
  let shifted : Instant :=
    if t.nanos < nanosPerSecond ∨ minutes = 0 then ⟨seconds, t.nanos⟩
    else if 0 < minutes then ⟨seconds, t.nanos - nanosPerSecond⟩
    else ⟨seconds + 1, t.nanos - nanosPerSecond⟩
  if shifted.isInRange then some shifted else none

/-! ### Written forms -/

/-- A year: four digits, and outside of them with a sign. -/
def yearText (year : Int) : String :=
  if 0 ≤ year ∧ year ≤ 9999 then padded 4 year.toNat
  else (if year < 0 then "-" else "+") ++ padded 4 year.natAbs

/-- The fraction of a second, with three, six or nine digits, or none if there is no fraction. -/
def fractionText (nanos : Nat) : String :=
  if nanos = 0 then ""
  else if nanos % 1000000 = 0 then "." ++ padded 3 (nanos / 1000000)
  else if nanos % 1000 = 0 then "." ++ padded 6 (nanos / 1000)
  else "." ++ padded 9 nanos

/-- The date as year, month and day. -/
def dateText (t : Instant) : String :=
  let date := t.date
  yearText date.year ++ "-" ++ padded 2 date.month ++ "-" ++ padded 2 date.day

/-- The date and the time to the fraction of a second, with a `T` between them. -/
def dateTimeText (t : Instant) : String :=
  t.dateText ++ "T" ++ t.timeOfDay.text ++ fractionText (t.nanos % nanosPerSecond)

/-- The form in documents, with `Z` for the zone. -/
def documentText (t : Instant) : String :=
  t.dateTimeText ++ "Z"

/-- The form in messages, with a numeric zone. -/
def offsetText (t : Instant) : String :=
  t.dateTimeText ++ "+00:00"

/-- The form in tables, to the minute. -/
def minuteText (t : Instant) : String :=
  t.dateText ++ " " ++ t.timeOfDay.minuteText

end Instant

end TradingStrategy.Calendar

import TradingStrategy.Calendar.Instant
import TradingStrategy.Number.Reader
import TradingStrategy.Text.Blank

/-!
Reading instants and times of day.

Owns:
- the strict form with a zone, whose fields have fixed widths;
- the loose forms without a zone, whose fields may be short and may have blanks in front;
- whole seconds;
- times of day for the session.

The forms are tried in this order, and the first that fits the whole text counts.
-/

namespace TradingStrategy.Calendar

/-- The fields of a date and a time as they were read. -/
structure Fields where
  year : Int
  month : Nat
  day : Nat
  hour : Nat
  minute : Nat
  second : Nat
  nanos : Nat
deriving Repr, DecidableEq

namespace Fields

/-- Before anything is read: midnight at the start of no date. -/
def blank : Fields :=
  ⟨0, 0, 0, 0, 0, 0, 0⟩

/-- The instant that the fields name, `offset` seconds east of the prime meridian. The second 60 is a leap second. -/
def toInstant? (fields : Fields) (offset : Int) : Option Instant :=
  let date : Date := ⟨fields.year, fields.month, fields.day⟩
  if date.isValid ∧ fields.hour ≤ 23 ∧ fields.minute ≤ 59 ∧ fields.second ≤ 60 then
    let (second, nanos) :=
      if fields.second = 60 then (59, nanosPerSecond + fields.nanos) else (fields.second, fields.nanos)
    let clock : Int := fields.hour * 3600 + fields.minute * 60 + second
    some ⟨date.toDays * secondsPerDay + clock - offset, nanos⟩
  else none

end Fields

/-! ### Scanning -/

/-- At least one digit and at most `width`, and what follows. -/
def upTo? (width : Nat) (chars : List Char) : Option (Nat × List Char) :=
  let run := (chars.take width).takeWhile Char.isDigit
  if run = [] then none else some (Number.digitsValue run, chars.drop run.length)

/-- Exactly `width` digits, and what follows. -/
def exactly? (width : Nat) (chars : List Char) : Option (Nat × List Char) :=
  let run := chars.take width
  if run.length = width ∧ run.all Char.isDigit then some (Number.digitsValue run, chars.drop width) else none

/-- What follows a given character. -/
def after? (c : Char) : List Char → Option (List Char)
  | head :: rest => if head = c then some rest else none
  | [] => none

/-! ### The strict form -/

/-- A fraction of a second behind a point, in nanoseconds: digits behind the ninth do not count. -/
def fraction? : List Char → Option (Nat × List Char)
  | '.' :: tail =>
      let run := tail.takeWhile Char.isDigit
      if run = [] then none
      else
        let kept := run.take 9
        some (Number.digitsValue kept * Nat.pow 10 (9 - kept.length), tail.dropWhile Char.isDigit)
  | chars => some (0, chars)

/-- A zone in seconds: `Z`, or a sign, two digits of hours, a colon and two digits of minutes. -/
def zone? : List Char → Option Int
  | ['Z'] => some 0
  | ['z'] => some 0
  | sign :: rest => do
      let (hours, afterHours) ← exactly? 2 rest
      let (minutes, afterMinutes) ← exactly? 2 (← after? ':' afterHours)
      let seconds : Int := hours * 3600 + minutes * 60
      if afterMinutes ≠ [] ∨ 59 < minutes ∨ secondsPerDay ≤ seconds then none
      else if sign = '+' then some seconds
      else if sign = '-' ∨ sign = '\u2212' then some (-seconds)
      else none
  | [] => none

/-- A date, a `T` or a blank, a time with an optional fraction, and a zone. -/
def strict? (chars : List Char) : Option Instant := do
  let (year, rest) ← exactly? 4 chars
  let (month, rest) ← exactly? 2 (← after? '-' rest)
  let (day, rest) ← exactly? 2 (← after? '-' rest)
  let rest ← after? 'T' rest <|> after? 't' rest <|> after? ' ' rest
  let (hour, rest) ← exactly? 2 rest
  let (minute, rest) ← exactly? 2 (← after? ':' rest)
  let (second, rest) ← exactly? 2 (← after? ':' rest)
  let (nanos, rest) ← fraction? rest
  let offset ← zone? rest
  Fields.toInstant? ⟨year, month, day, hour, minute, second, nanos⟩ offset

/-! ### The loose forms -/

/-- A part of a loose form. -/
inductive Part where
  | year | month | day | hour | minute | second
  | blanks
  | mark (c : Char)
deriving Repr, DecidableEq

/-- A year: four digits at most, or any number of them behind a sign. -/
def year? : List Char → Option (Int × List Char)
  | '-' :: rest => (upTo? rest.length rest).map fun (n, rest) => (-(n : Int), rest)
  | '+' :: rest => (upTo? rest.length rest).map fun (n, rest) => ((n : Int), rest)
  | chars => (upTo? 4 chars).map fun (n, rest) => ((n : Int), rest)

/-- Reads one part; a number may have blanks in front. -/
def readPart (fields : Fields) (chars : List Char) : Part → Option (Fields × List Char)
  | .year => (year? (Text.skipBlanks chars)).map fun (n, rest) => ({ fields with year := n }, rest)
  | .month => (upTo? 2 (Text.skipBlanks chars)).map fun (n, rest) => ({ fields with month := n }, rest)
  | .day => (upTo? 2 (Text.skipBlanks chars)).map fun (n, rest) => ({ fields with day := n }, rest)
  | .hour => (upTo? 2 (Text.skipBlanks chars)).map fun (n, rest) => ({ fields with hour := n }, rest)
  | .minute => (upTo? 2 (Text.skipBlanks chars)).map fun (n, rest) => ({ fields with minute := n }, rest)
  | .second => (upTo? 2 (Text.skipBlanks chars)).map fun (n, rest) => ({ fields with second := n }, rest)
  | .blanks => some (fields, Text.skipBlanks chars)
  | .mark c => (after? c chars).map fun rest => (fields, rest)

/-- Reads the parts of a form one after another; nothing may be left. -/
def readParts : List Part → Fields → List Char → Option Fields
  | [], fields, chars => if chars = [] then some fields else none
  | part :: parts, fields, chars =>
      match readPart fields chars part with
      | some (fields, rest) => readParts parts fields rest
      | none => none

def dateParts : List Part :=
  [.year, .mark '-', .month, .mark '-', .day]

/-- The parts of a time to the minute. -/
def minuteParts : List Part :=
  [.hour, .mark ':', .minute]

/-- The parts of a time to the second. -/
def secondParts : List Part :=
  minuteParts ++ [.mark ':', .second]

/-- The loose forms in the order in which they are tried. -/
def looseForms : List (List Part) :=
  [dateParts ++ [.blanks] ++ secondParts,
   dateParts ++ [.mark 'T'] ++ secondParts,
   dateParts ++ [.blanks] ++ minuteParts,
   dateParts]

/-- The instant that the first fitting loose form gives. -/
def loose? (chars : List Char) : Option Instant :=
  looseForms.findSome? fun form => (readParts form Fields.blank chars).bind fun fields => fields.toInstant? 0

/-! ### Instants and times of day -/

/-- Whole seconds with an optional sign, within the range of years. -/
def epochSeconds? (text : String) : Option Instant :=
  match Number.parseInt? Int64.minValue.toInt Int64.maxValue.toInt text with
  | some seconds =>
      if Instant.minSeconds ≤ seconds ∧ seconds < Instant.endSeconds then some (.ofSeconds seconds) else none
  | none => none

/-- Reads an instant from a text without blanks around it. -/
def parseInstant? (text : String) : Option Instant :=
  strict? text.toList <|> loose? text.toList <|> epochSeconds? text

/-- Reads a time of day to the minute, or else to the second. -/
def parseTimeOfDay? (text : String) : Option TimeOfDay := do
  let fields ← readParts minuteParts Fields.blank text.toList <|> readParts secondParts Fields.blank text.toList
  if fields.hour ≤ 23 ∧ fields.minute ≤ 59 ∧ fields.second ≤ 60 then
    if fields.second = 60 then some ⟨fields.hour * 3600 + fields.minute * 60 + 59, nanosPerSecond⟩
    else some (TimeOfDay.ofClock fields.hour fields.minute fields.second)
  else none

end TradingStrategy.Calendar

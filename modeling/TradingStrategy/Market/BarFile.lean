import TradingStrategy.Calendar.Reader
import TradingStrategy.Market.Bar
import TradingStrategy.Market.Timeframe
import TradingStrategy.Number.Notation
import TradingStrategy.Number.Reader
import TradingStrategy.Text.Blank
import TradingStrategy.Text.Csv

/-!
Files of bars.

Owns:
- the reading of bars from comma-separated records with a header: a time, the four prices and the volume;
- the faults of a record and their wording;
- the order of the bars, their bounds in time, and the names of the files.
-/

namespace TradingStrategy

/-- The columns behind the time. -/
inductive BarColumn where
  | opening | high | low | close | volume
deriving Repr, DecidableEq

namespace BarColumn

def name : BarColumn → String
  | opening => "open"
  | high => "high"
  | low => "low"
  | close => "close"
  | volume => "volume"

/-- The position of a column in a record. -/
def position : BarColumn → Nat
  | opening => 1
  | high => 2
  | low => 3
  | close => 4
  | volume => 5

end BarColumn

/-- Why bars cannot be read. Records are counted from zero with the header, rows from one without it. -/
inductive BarFault where
  | fieldCount (position : Nat) (record : Text.CsvRecord) (expected : Nat)
  | missingTime
  | missingColumn (column : BarColumn)
  | time (raw : String)
  | number (column : BarColumn) (raw : String) (fault : Number.Fault)
  | range (row : Nat) (low high : Float)
deriving Repr, DecidableEq

def BarFault.message : BarFault → String
  | fieldCount position record expected =>
      "CSV parse error: CSV error: record " ++ toString position ++ " (line: " ++ toString record.line ++
        ", byte: " ++ toString record.byte ++ "): found record with " ++ toString record.fields.length ++
        " fields, but the previous record has " ++ toString expected ++ " fields"
  | missingTime => "missing timestamp column"
  | missingColumn column => "missing " ++ column.name ++ " column"
  | time raw => "invalid timestamp '" ++ raw ++ "'"
  | number column raw fault => "invalid " ++ column.name ++ " value '" ++ raw ++ "': " ++ fault.message
  | range row low high =>
      "row " ++ toString row ++ ": low " ++ Number.plain low ++ " above high " ++ Number.plain high

def timeOfRecord (fields : List String) : Except BarFault Calendar.Instant :=
  match fields.head? with
  | none => .error .missingTime
  | some raw =>
      match Calendar.parseInstant? (Text.trim raw) with
      | some t => .ok t
      | none => .error (.time (Text.trim raw))

/-- The number in a column of a record. -/
def numberOfRecord (fields : List String) (column : BarColumn) : Except BarFault Float :=
  match fields[column.position]? with
  | none => .error (.missingColumn column)
  | some raw =>
      match Number.parse (Text.trim raw) with
      | .ok x => .ok x
      | .error fault => .error (.number column raw fault)

/-- The bar of a record that is a row. -/
def barOfRecord (symbol : String) (row : Nat) (fields : List String) : Except BarFault Bar := do
  let timestamp ← timeOfRecord fields
  let opening ← numberOfRecord fields .opening
  let high ← numberOfRecord fields .high
  let low ← numberOfRecord fields .low
  let close ← numberOfRecord fields .close
  let volume ← numberOfRecord fields .volume
  if high < low then .error (.range row low high)
  else return ⟨symbol, timestamp, opening, high, low, close, volume⟩

/-- The bars of records, from a row on. Every record has as many fields as the header. -/
def barsOfRecords (symbol : String) (expected row : Nat) : List Text.CsvRecord → Except BarFault (List Bar)
  | [] => .ok []
  | record :: rest => do
      if record.fields.length ≠ expected then .error (.fieldCount row record expected)
      let bar ← barOfRecord symbol row record.fields
      let others ← barsOfRecords symbol expected (row + 1) rest
      return bar :: others

/-- One bar is not later than another. -/
def Bar.notAfter (a b : Bar) : Bool :=
  a.timestamp.notAfter b.timestamp

/-- The bars of a file, oldest first; bars of one time stay in the order of the file. -/
def readBars (symbol text : String) : Except BarFault (List Bar) :=
  match Text.csvRecords text with
  | [] => .ok []
  | header :: rows => (barsOfRecords symbol header.fields.length 1 rows).map fun bars => bars.mergeSort Bar.notAfter

/-- A time lies within bounds, each of which may be missing and belongs to the range. -/
def withinBounds (start finish : Option Calendar.Instant) (t : Calendar.Instant) : Bool :=
  (start.all fun s => s.notAfter t) && (finish.all fun f => t.notAfter f)

/-- The bars of a file within bounds. -/
def readBarsWithin (symbol text : String) (start finish : Option Calendar.Instant) : Except BarFault (List Bar) :=
  (readBars symbol text).map fun bars => bars.filter fun bar => withinBounds start finish bar.timestamp

/-- What follows the symbol in the name of a file of bars. -/
def barFileSuffix (timeframe : Timeframe) : String :=
  "_" ++ timeframe.name ++ ".csv"

/-- The name of the file of a symbol's bars. -/
def barFileName (symbol : String) (timeframe : Timeframe) : String :=
  symbol ++ barFileSuffix timeframe

/-- The symbol of a file of bars. -/
def symbolOfFile? (timeframe : Timeframe) (name : String) : Option String :=
  let suffix := (barFileSuffix timeframe).toList
  if suffix.isSuffixOf name.toList then
    some (String.ofList (name.toList.take (name.length - suffix.length)))
  else none

/-- The symbols of which there are bars in a directory, in ascending order. -/
def symbolsOfFiles (timeframe : Timeframe) (names : List String) : List String :=
  (names.filterMap (symbolOfFile? timeframe)).mergeSort fun a b => a ≤ b

end TradingStrategy

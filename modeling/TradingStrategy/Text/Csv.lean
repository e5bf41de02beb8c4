/-!
Comma-separated records.

Owns: the reading of a text into records of fields, and the place where each record starts.

A field that starts with a quote goes on to the next single quote, and a doubled quote inside stands for one. A line
ends with a line feed or a carriage return; lines without any character are skipped. A byte order mark in front of the
text is skipped.

The reader is a step on one character, folded over the text.
-/

namespace TradingStrategy.Text

/-- A record: its fields, and the line and the byte behind the record before it. Lines are counted from one and end
with their line feed, bytes are counted from zero. -/
structure CsvRecord where
  fields : List String
  line : Nat
  byte : Nat
deriving Repr, DecidableEq

/-- Where the reader is. -/
inductive CsvPlace where
  /-- In front of a record. -/
  | recordStart
  /-- In front of a field. -/
  | fieldStart
  /-- In a field without quotes, or behind its closing quote. -/
  | plain
  /-- Between quotes. -/
  | quoted
  /-- Behind a quote that stood between quotes. -/
  | afterQuote
deriving Repr, DecidableEq

/-- What the reader has read. Characters, fields and records are kept last first. -/
structure CsvState where
  place : CsvPlace
  field : List Char
  fields : List String
  records : List CsvRecord
  /-- The line and the byte of the next character. -/
  line : Nat
  byte : Nat
  /-- The line and the byte behind the last record. -/
  startLine : Nat
  startByte : Nat
deriving Repr, DecidableEq

namespace CsvState

/-- In front of a text that starts at a byte. -/
def start (byte : Nat) : CsvState where
  place := .recordStart
  field := []
  fields := []
  records := []
  line := 1
  byte := byte
  startLine := 1
  startByte := 0

def isLineEnd (c : Char) : Bool :=
  c = '\n' || c = '\r'

/-- Passes a character. -/
def pass (state : CsvState) (c : Char) : CsvState :=
  { state with
    line := if c = '\n' then state.line + 1 else state.line
    byte := state.byte + c.utf8Size }

/-- Puts a character into the field. -/
def keep (state : CsvState) (c : Char) (place : CsvPlace) : CsvState :=
  { state with field := c :: state.field, place := place }

def endField (state : CsvState) : CsvState :=
  { state with
    place := .fieldStart
    fields := String.ofList state.field.reverse :: state.fields
    field := [] }

/-- Ends the field and the record. -/
def endRecord (state : CsvState) : CsvState :=
  let ended := state.endField
  { ended with
    place := .recordStart
    fields := []
    records := ⟨ended.fields.reverse, state.startLine, state.startByte⟩ :: state.records
    startLine := state.line
    startByte := state.byte }

/-- Takes a character outside of quotes: a delimiter, an end of line, or a part of the field. -/
def takePlain (state : CsvState) (c : Char) : CsvState :=
  if c = ',' then state.endField
  else if isLineEnd c then state.endRecord
  else state.keep c .plain

/-- Takes a character at the start of a field. -/
def takeFirst (state : CsvState) (c : Char) : CsvState :=
  if c = '"' then { state with place := .quoted } else state.takePlain c

/-- Takes one character, which has been passed. -/
def take (state : CsvState) (c : Char) : CsvState :=
  match state.place with
  | .recordStart => if isLineEnd c then state else state.takeFirst c
  | .fieldStart => state.takeFirst c
  | .plain => state.takePlain c
  | .quoted => if c = '"' then { state with place := .afterQuote } else state.keep c .quoted
  | .afterQuote => if c = '"' then state.keep c .quoted else state.takePlain c

/-- Reads one character. -/
def step (state : CsvState) (c : Char) : CsvState :=
  (state.pass c).take c

/-- Ends the text: a record that has begun is ended. -/
def finish (state : CsvState) : CsvState :=
  match state.place with
  | .recordStart => state
  | _ => state.endRecord

end CsvState

def byteOrderMark : Char :=
  '\ufeff'

def csvRecords (text : String) : List CsvRecord :=
  let (chars, start) := match text.toList with
    | c :: rest => if c = byteOrderMark then (rest, c.utf8Size) else (c :: rest, 0)
    | [] => ([], 0)
  (chars.foldl CsvState.step (.start start)).finish.records.reverse

end TradingStrategy.Text

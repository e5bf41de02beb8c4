import TradingStrategy.Json.Value
import TradingStrategy.Number.Notation

/-!
Writing JSON text.

Owns:
- the escapes of strings: a quote, a backslash and the control characters, nothing else;
- the pretty form with an indent of two spaces, and the compact form on one line.

Numbers are written by `Number.Notation`; empty containers are written without a line break in both forms.
-/

namespace TradingStrategy.Json

/-- A hexadecimal digit. -/
def hexDigit (value : Nat) : Char :=
  if value < 10 then Char.ofNat (48 + value) else Char.ofNat (87 + value)

/-- The form of one character inside a string. -/
def escapedChar (c : Char) : List Char :=
  if c = '"' then ['\\', '"']
  else if c = '\\' then ['\\', '\\']
  else if c = '\n' then ['\\', 'n']
  else if c = '\t' then ['\\', 't']
  else if c = '\r' then ['\\', 'r']
  else if c = '\x08' then ['\\', 'b']
  else if c = '\x0c' then ['\\', 'f']
  else if c.toNat < 0x20 then ['\\', 'u', '0', '0', hexDigit (c.toNat / 16), hexDigit (c.toNat % 16)]
  else [c]

/-- A string between quotes. -/
def stringChars (text : String) : List Char :=
  '"' :: text.toList.flatMap escapedChar ++ ['"']

def intChars (value : Int) : List Char :=
  Number.signed (value < 0) (Number.digitChars value.natAbs)

/-- A value that is no container. -/
def scalarChars : Json → List Char
  | bool true => ['t', 'r', 'u', 'e']
  | bool false => ['f', 'a', 'l', 's', 'e']
  | int value => intChars value
  | float value => Number.documentChars value
  | string value => stringChars value
  | _ => ['n', 'u', 'l', 'l']

/-- A line break and the indent of a depth. -/
def newline (depth : Nat) : List Char :=
  '\n' :: List.replicate (2 * depth) ' '

mutual

/-- The pretty form of a value at a depth. -/
def prettyChars (depth : Nat) : Json → List Char
  | array [] => ['[', ']']
  | array (first :: rest) =>
      '[' :: newline (depth + 1) ++ prettyChars (depth + 1) first ++ prettyItems (depth + 1) rest ++
        newline depth ++ [']']
  | object [] => ['\x7b', '\x7d']
  | object ((name, first) :: rest) =>
      '\x7b' :: newline (depth + 1) ++ stringChars name ++ [':', ' '] ++ prettyChars (depth + 1) first ++
        prettyFields (depth + 1) rest ++ newline depth ++ ['\x7d']
  | value => scalarChars value

/-- The items behind the first one, each behind a comma on a line of its own. -/
def prettyItems (depth : Nat) : List Json → List Char
  | [] => []
  | item :: rest => ',' :: newline depth ++ prettyChars depth item ++ prettyItems depth rest

/-- The fields behind the first one, each behind a comma on a line of its own. -/
def prettyFields (depth : Nat) : List (String × Json) → List Char
  | [] => []
  | (name, value) :: rest =>
      ',' :: newline depth ++ stringChars name ++ [':', ' '] ++ prettyChars depth value ++ prettyFields depth rest

end

mutual

/-- The form of a value on one line, without blanks. -/
def compactChars : Json → List Char
  | array items => '[' :: compactItems items ++ [']']
  | object fields => '\x7b' :: compactFields fields ++ ['\x7d']
  | value => scalarChars value

/-- Items between commas. -/
def compactItems : List Json → List Char
  | [] => []
  | [item] => compactChars item
  | item :: rest => compactChars item ++ ',' :: compactItems rest

/-- Fields between commas. -/
def compactFields : List (String × Json) → List Char
  | [] => []
  | [(name, value)] => stringChars name ++ ':' :: compactChars value
  | (name, value) :: rest => stringChars name ++ ':' :: compactChars value ++ ',' :: compactFields rest

end

def pretty (value : Json) : String :=
  String.ofList (prettyChars 0 value)

/-- The text of a value on one line. -/
def compact (value : Json) : String :=
  String.ofList (compactChars value)

end TradingStrategy.Json

import TradingStrategy.Calendar.Reader
import TradingStrategy.Text.Blank
import TradingStrategy.Text.Lowercase

/-!
Sectioned settings files.

Owns:
- the reading of a file of sections and keys, and the faults of a line;
- look-ups by section and key, also as numbers, booleans and times.

Names of sections and keys are in lower case. A semicolon or a number sign starts a comment. Keys in front of the first
section belong to the section `default`. Of several values for a key the last one counts.
-/

namespace TradingStrategy

/-- Why a line cannot be read. Lines are counted from one. -/
inductive IniFault where
  | openSection (line : Nat)
  | emptyKey (line : Nat)
deriving Repr, DecidableEq

/-- The wording of a fault. A delimiter without a key is always the first character of its line. -/
def IniFault.message : IniFault → String
  | openSection line =>
      "line " ++ toString line ++ ": Found opening bracket for section name but no closing bracket"
  | emptyKey line => "line " ++ toString line ++ ":0: Key cannot be empty"

/-- What a line says. -/
inductive IniLine where
  | nothing
  | opening (name : String)
  | entry (key : String) (value : Option String)
deriving Repr, DecidableEq

/-- A key with its section and its value, if it has one. -/
structure IniEntry where
  place : String
  key : String
  value : Option String
deriving Repr, DecidableEq

/-- The entries of a settings file in their order. -/
structure Ini where
  entries : List IniEntry
deriving Repr, DecidableEq

namespace Ini

/-- The section of keys in front of the first section. -/
def defaultSection : String :=
  "default"

/-- A comment starts here. -/
def isCommentStart (c : Char) : Bool :=
  c = ';' || c = '#'

/-- Here a key ends and its value starts. -/
def isDelimiter (c : Char) : Bool :=
  c = '=' || c = ':'

/-- A name of a section or a key. -/
def nameOf (chars : List Char) : String :=
  Text.lower (String.ofList (Text.trimChars chars))

/-- What stands in front of the last closing bracket, if there is one. -/
def beforeLastBracket? (chars : List Char) : Option (List Char) :=
  match chars.reverse.dropWhile (· ≠ ']') with
  | [] => none
  | _ :: rest => some rest.reverse

/-- A key and its value. -/
def readEntry (number : Nat) (chars : List Char) : Except IniFault IniLine :=
  match chars.dropWhile fun c => !isDelimiter c with
  | [] => .ok (.entry (nameOf chars) none)
  | _ :: value =>
      let key := chars.takeWhile fun c => !isDelimiter c
      if Text.trimChars key = [] then .error (.emptyKey number)
      else .ok (.entry (nameOf key) (some (String.ofList (Text.trimChars value))))

def readLine (number : Nat) (line : List Char) : Except IniFault IniLine :=
  match Text.trimChars ((Text.trimChars line).takeWhile fun c => !isCommentStart c) with
  | [] => .ok .nothing
  | '[' :: rest =>
      match beforeLastBracket? rest with
      | some name => .ok (.opening (nameOf name))
      | none => .error (.openSection number)
  | chars => readEntry number chars

def linesOf (text : String) : List (List Char) :=
  text.toList.splitOn '\n'

/-- Reads lines, from a number on, in a section. -/
def readLines (number : Nat) (place : String) : List (List Char) → Except IniFault (List IniEntry)
  | [] => .ok []
  | line :: rest => do
      match ← readLine number line with
      | .nothing => readLines (number + 1) place rest
      | .opening name => readLines (number + 1) name rest
      | .entry key value =>
          let others ← readLines (number + 1) place rest
          return ⟨place, key, value⟩ :: others

/-- Reads a settings file. -/
def read (text : String) : Except IniFault Ini := do
  return ⟨← readLines 1 defaultSection (linesOf text)⟩

/-- The value of a key; a key without a value counts as absent. -/
def string? (ini : Ini) (place key : String) : Option String :=
  let found := ini.entries.reverse.find? fun entry =>
    entry.place == Text.lower place && entry.key == Text.lower key
  found.bind IniEntry.value

/-- The bounds of 64-bit whole numbers. -/
def intOf? (raw : String) : Option Int :=
  Number.parseInt? Int64.minValue.toInt Int64.maxValue.toInt raw

/-- A boolean word, in any case of its letters. -/
def boolOf? (raw : String) : Option Bool :=
  let word := Text.lower (Text.trim raw)
  if ["true", "yes", "on", "1"].contains word then some true
  else if ["false", "no", "off", "0"].contains word then some false
  else none

/-- The value of a key as a whole number, or the default. -/
def int (ini : Ini) (place key : String) (default : Int) : Int :=
  ((ini.string? place key).bind intOf?).getD default

/-- The value of a key as a number, or the default. -/
def number (ini : Ini) (place key : String) (default : Float) : Float :=
  ((ini.string? place key).bind fun raw => (Number.parse raw).toOption).getD default

/-- The value of a key as a boolean, or the default. -/
def bool (ini : Ini) (place key : String) (default : Bool) : Bool :=
  ((ini.string? place key).bind boolOf?).getD default

/-- The value of a key as a time of day, if it has one; a value that is no time is the error. -/
def time? (ini : Ini) (place key : String) : Except String (Option Calendar.TimeOfDay) :=
  match ini.string? place key with
  | none => .ok none
  | some raw =>
      match Calendar.parseTimeOfDay? (Text.trim raw) with
      | some time => .ok (some time)
      | none => .error (Text.trim raw)

end Ini

end TradingStrategy

import TradingStrategy.Json.Value
import TradingStrategy.Number.Reader

/-!
Reading JSON text.

Owns:
- the strict grammar of JSON text: no comments, no trailing commas, no leading zeros, no lone surrogates;
- the limit on nested containers;
- the shape of what is asked for: fields of records that are not asked for are skimmed;
- the line at which reading stops.

What is skimmed must follow the grammar, and that is all: its numbers may be too large, its strings may hold lone
surrogates, and its containers may be nested to any depth.

Each step takes the characters that are left and answers with a value and a shorter rest, or with the characters
behind the one that does not fit. The line is counted from those only once, at the end.
-/

namespace TradingStrategy.Json

/-- Reading stopped: the characters that follow the one that does not fit. -/
structure Stop where
  rest : List Char
deriving Repr, DecidableEq

/-- What is left after at least one character was read. -/
abbrev Rest (chars : List Char) : Type :=
  { rest : List Char // rest.length < chars.length }

/-- What a step of the reader answers. -/
abbrev Read (α : Type) (chars : List Char) : Type :=
  Except Stop (α × Rest chars)

/-- Containers may be nested one less deep than this. -/
def depthLimit : Nat := 128

/-- What is asked for in a text. Of a record only the named fields are kept; as an array, it has their values in the
order of the names. -/
inductive Shape where
  | any
  | list (item : Shape)
  | record (fields : List (String × Shape))

namespace Shape

/-- What is asked for at a position of an array. -/
def item : Shape → Nat → Shape
  | list shape, _ => shape
  | record fields, position => ((fields[position]?).map Prod.snd).getD any
  | any, _ => any

/-- What is asked for in a field, if anything is. -/
def field? : Shape → String → Option Shape
  | record fields, name => (fields.find? fun field => field.1 == name).map Prod.snd
  | _, _ => some any

end Shape

/-- How a value is read: it is kept, with at most `depth` containers nested in it, itself included, or it is skimmed. -/
inductive Reading where
  | keep (depth : Nat) (shape : Shape)
  | skim

namespace Reading

/-- The value is only skimmed. -/
def isSkim : Reading → Bool
  | skim => true
  | keep .. => false

/-- How the contents of a container are read, if it is not nested too deeply. -/
def enter? : Reading → Option Reading
  | keep 0 _ => none
  | keep (depth + 1) shape => some (keep depth shape)
  | skim => some skim

/-- How the value at a position is read, inside an array. -/
def item : Reading → Nat → Reading
  | keep depth shape, position => keep depth (shape.item position)
  | skim, _ => skim

/-- How the value of a field is read, inside an object. -/
def field : Reading → String → Reading
  | keep depth shape, name =>
      match shape.field? name with
      | some shape => keep depth shape
      | none => skim
  | skim, _ => skim

end Reading

/-- The blanks between tokens. -/
def isSpace (c : Char) : Bool :=
  c = ' ' || c = '\n' || c = '\t' || c = '\r'

/-- The characters from the next token on. -/
def skipSpaces (chars : List Char) : List Char :=
  chars.dropWhile isSpace

theorem skipSpaces_length_le (chars : List Char) : (skipSpaces chars).length ≤ chars.length :=
  (List.dropWhile_sublist isSpace).length_le

/-- Stops behind the next character. -/
def stopAtHead {α : Type} (chars : List Char) : Except Stop α :=
  .error ⟨chars.tail⟩

/-- Leaves out the characters of a keyword. -/
def keyword : List Char → List Char → Except Stop (List Char)
  | [], chars => .ok chars
  | _ :: _, [] => .error ⟨[]⟩
  | expected :: word, c :: chars => if c = expected then keyword word chars else .error ⟨chars⟩

theorem keyword_length_le {word chars rest : List Char} (h : keyword word chars = .ok rest) :
    rest.length ≤ chars.length := by
  induction word generalizing chars with
  | nil => simp [keyword] at h; simp [h]
  | cons expected word inductionHypothesis =>
    cases chars with
    | nil => simp [keyword] at h
    | cons c chars =>
      simp only [keyword] at h
      split at h
      · exact Nat.le_succ_of_le (inductionHypothesis h)
      · simp at h

/-! ### Numbers -/

/-- At least one digit, and what follows the digits. -/
def digits (chars : List Char) : Except Stop (List Char × List Char) :=
  match chars.takeWhile Char.isDigit with
  | [] => stopAtHead chars
  | run => .ok (run, chars.dropWhile Char.isDigit)

/-- The digits of a whole part: a zero stands alone. -/
def wholeDigits (chars : List Char) : Except Stop (List Char × List Char) :=
  match digits chars with
  | .ok ('0' :: _ :: _, _) => .error ⟨chars.drop 2⟩
  | answer => answer

/-- The fractional digits behind a point, if there is a point. -/
def fractionDigits : List Char → Except Stop (Option (List Char) × List Char)
  | '.' :: tail => (digits tail).map fun (run, rest) => (some run, rest)
  | chars => .ok (none, chars)

/-- An exponent behind its mark, if there is a mark. -/
def exponentPart : List Char → Except Stop (Option Int × List Char)
  | mark :: tail =>
      if mark = 'e' ∨ mark = 'E' then
        let (negative, unsigned) := Number.splitSign tail
        (digits unsigned).map fun (run, rest) =>
          let value : Int := Number.digitsValue run
          (some (if negative then -value else value), rest)
      else .ok (none, mark :: tail)
  | [] => .ok (none, [])

/-- The value of a number from its parts. Whole numbers in the range of 64 bits, signed or not, stay whole; the
negative zero and all others are doubles, and a double that is too large is refused. -/
def numberValue (negative : Bool) (whole : List Char) (fraction : Option (List Char)) (exponent : Option Int) :
    Option Json :=
  let magnitude : Int := Number.digitsValue whole
  let value : Int := if negative then -magnitude else magnitude
  let isWhole := fraction.isNone && exponent.isNone && !(negative && magnitude == 0)
  if isWhole ∧ Int64.minValue.toInt ≤ value ∧ value < UInt64.size then some (.int value)
  else
    let double := Number.ofParts whole (fraction.getD []) (exponent.getD 0)
    if double.isFinite then some (.float (if negative then -double else double)) else none

/-- A number without its sign. When it is skimmed, it has no value. -/
def unsignedNumber (skimmed negative : Bool) (chars : List Char) : Except Stop (Json × List Char) := do
  let (whole, afterWhole) ← wholeDigits chars
  let (fraction, afterFraction) ← fractionDigits afterWhole
  let (exponent, rest) ← exponentPart afterFraction
  if skimmed then .ok (.null, rest)
  else match numberValue negative whole fraction exponent with
    | some value => .ok (value, rest)
    | none => .error ⟨rest⟩

def number (skimmed : Bool) : List Char → Except Stop (Json × List Char)
  | '-' :: chars => unsignedNumber skimmed true chars
  | chars => unsignedNumber skimmed false chars

theorem digits_length_lt {chars run rest : List Char} (h : digits chars = .ok (run, rest)) :
    rest.length < chars.length := by
  unfold digits at h
  split at h
  · simp [stopAtHead] at h
  · next nonempty =>
    simp only [Except.ok.injEq, Prod.mk.injEq] at h
    have split := List.takeWhile_append_dropWhile (p := Char.isDigit) (l := chars)
    have lengths := congrArg List.length split
    have positive : 0 < (chars.takeWhile Char.isDigit).length :=
      List.length_pos_iff.mpr nonempty
    simp only [List.length_append] at lengths
    rw [← h.2]
    omega

theorem wholeDigits_length_lt {chars run rest : List Char} (h : wholeDigits chars = .ok (run, rest)) :
    rest.length < chars.length := by
  unfold wholeDigits at h
  split at h
  · simp at h
  · exact digits_length_lt h

theorem fractionDigits_length_le {chars rest : List Char} {run : Option (List Char)}
    (h : fractionDigits chars = .ok (run, rest)) : rest.length ≤ chars.length := by
  unfold fractionDigits at h
  split at h
  · next tail =>
    cases found : digits tail with
    | error stop => rw [found] at h; simp [Except.map] at h
    | ok answer =>
      rw [found] at h
      simp only [Except.map, Except.ok.injEq, Prod.mk.injEq] at h
      have : answer.2.length < tail.length := digits_length_lt found
      rw [← h.2]
      simp
      omega
  · simp only [Except.ok.injEq, Prod.mk.injEq] at h
    simp [h.2]

theorem splitSign_length_le (chars : List Char) : (Number.splitSign chars).2.length ≤ chars.length := by
  unfold Number.splitSign
  split <;> simp

theorem exponentPart_length_le {chars rest : List Char} {exponent : Option Int}
    (h : exponentPart chars = .ok (exponent, rest)) : rest.length ≤ chars.length := by
  unfold exponentPart at h
  split at h
  · next mark tail =>
    split at h
    · simp only at h
      cases found : digits (Number.splitSign tail).2 with
      | error stop => rw [found] at h; simp [Except.map] at h
      | ok answer =>
        rw [found] at h
        simp only [Except.map, Except.ok.injEq, Prod.mk.injEq] at h
        have shorter : answer.2.length < (Number.splitSign tail).2.length := digits_length_lt found
        have signLe := splitSign_length_le tail
        rw [← h.2]
        simp
        omega
    · simp only [Except.ok.injEq, Prod.mk.injEq] at h
      simp [← h.2]
  · simp only [Except.ok.injEq, Prod.mk.injEq] at h
    simp [← h.2]

theorem unsignedNumber_length_lt {skimmed negative : Bool} {chars rest : List Char} {meaning : Json}
    (h : unsignedNumber skimmed negative chars = .ok (meaning, rest)) : rest.length < chars.length := by
  unfold unsignedNumber at h
  cases wholeFound : wholeDigits chars with
  | error stop => rw [wholeFound] at h; simp [bind, Except.bind] at h
  | ok wholeAnswer =>
    cases fractionFound : fractionDigits wholeAnswer.2 with
    | error stop => rw [wholeFound] at h; simp [bind, Except.bind, fractionFound] at h
    | ok fractionAnswer =>
      cases exponentFound : exponentPart fractionAnswer.2 with
      | error stop => rw [wholeFound] at h; simp [bind, Except.bind, fractionFound, exponentFound] at h
      | ok exponentAnswer =>
        rw [wholeFound] at h
        simp only [bind, Except.bind, fractionFound, exponentFound] at h
        have first : wholeAnswer.2.length < chars.length := wholeDigits_length_lt wholeFound
        have second : fractionAnswer.2.length ≤ wholeAnswer.2.length := fractionDigits_length_le fractionFound
        have third : exponentAnswer.2.length ≤ fractionAnswer.2.length := exponentPart_length_le exponentFound
        have found : exponentAnswer.2 = rest := by
          split at h
          · simp only [Except.ok.injEq, Prod.mk.injEq] at h
            exact h.2
          · split at h
            · simp only [Except.ok.injEq, Prod.mk.injEq] at h
              exact h.2
            · simp at h
        rw [← found]
        omega

theorem number_length_lt {skimmed : Bool} {chars rest : List Char} {meaning : Json}
    (h : number skimmed chars = .ok (meaning, rest)) : rest.length < chars.length := by
  unfold number at h
  split at h
  · exact Nat.lt_succ_of_lt (unsignedNumber_length_lt h)
  · exact unsignedNumber_length_lt h

/-! ### Strings -/

/-- The value of a hexadecimal digit. -/
def hexValue? (c : Char) : Option Nat :=
  if '0' ≤ c ∧ c ≤ '9' then some (c.toNat - '0'.toNat)
  else if 'a' ≤ c ∧ c ≤ 'f' then some (c.toNat - 'a'.toNat + 10)
  else if 'A' ≤ c ∧ c ≤ 'F' then some (c.toNat - 'A'.toNat + 10)
  else none

/-- What is left behind the given number of bytes; a character that they cut counts as passed. -/
def dropBytes : Nat → List Char → List Char
  | 0, chars => chars
  | _, [] => []
  | count, c :: chars => dropBytes (count - c.utf8Size) chars

/-- A code unit of four hexadecimal digits. -/
def codeUnit (chars : List Char) : Except Stop (Nat × Rest chars) :=
  match chars with
  | a :: b :: c :: d :: rest =>
      match hexValue? a, hexValue? b, hexValue? c, hexValue? d with
      | some a, some b, some c, some d =>
          .ok (((a * 16 + b) * 16 + c) * 16 + d, ⟨rest, by simp; omega⟩)
      | _, _, _, _ => .error ⟨dropBytes 4 chars⟩
  | _ => .error ⟨dropBytes 4 chars⟩

/-- The character that the code units behind `\u` name. A high surrogate needs a low one behind it; when the string is
skimmed, each unit stands alone. -/
def unicodeEscape (skimmed : Bool) (chars : List Char) : Except Stop (Char × Rest chars) :=
  match codeUnit chars with
  | .error stop => .error stop
  | .ok (unit, ⟨rest, shorter⟩) =>
      if skimmed then .ok ('\ufffd', ⟨rest, shorter⟩)
      else if 0xDC00 ≤ unit ∧ unit ≤ 0xDFFF then .error ⟨rest⟩
      else if 0xD800 ≤ unit ∧ unit ≤ 0xDBFF then
        match h : rest with
        | '\\' :: 'u' :: second =>
            match codeUnit second with
            | .error stop => .error stop
            | .ok (low, ⟨rest', shorter'⟩) =>
                if 0xDC00 ≤ low ∧ low ≤ 0xDFFF then
                  .ok (Char.ofNat (0x10000 + (unit - 0xD800) * 0x400 + (low - 0xDC00)),
                    ⟨rest', by simp only [List.length_cons] at shorter; omega⟩)
                else .error ⟨rest'⟩
        | '\\' :: other => .error ⟨other.tail⟩
        | other => .error ⟨other.tail⟩
      else .ok (Char.ofNat unit, ⟨rest, shorter⟩)

/-- The character that an escape names, read behind its backslash. -/
def escape (skimmed : Bool) (chars : List Char) : Except Stop (Char × Rest chars) :=
  match h : chars with
  | [] => .error ⟨[]⟩
  | letter :: rest =>
      let plain (c : Char) : Except Stop (Char × Rest (letter :: rest)) := .ok (c, ⟨rest, by simp⟩)
      match letter with
      | '"' => plain '"'
      | '\\' => plain '\\'
      | '/' => plain '/'
      | 'b' => plain '\x08'
      | 'f' => plain '\x0c'
      | 'n' => plain '\n'
      | 'r' => plain '\r'
      | 't' => plain '\t'
      | 'u' =>
          match unicodeEscape skimmed rest with
          | .ok (c, ⟨more, shorter⟩) => .ok (c, ⟨more, by simp; omega⟩)
          | .error stop => .error stop
      | _ => .error ⟨rest⟩

/-- The characters of a string up to its closing quote. -/
def stringTail (skimmed : Bool) (chars : List Char) : Except Stop (List Char × Rest chars) :=
  match h : chars with
  | [] => .error ⟨[]⟩
  | '"' :: rest => .ok ([], ⟨rest, by simp⟩)
  | '\\' :: rest =>
      match escape skimmed rest with
      | .error stop => .error stop
      | .ok (c, ⟨more, shorter⟩) =>
          match stringTail skimmed more with
          | .error stop => .error stop
          | .ok (text, ⟨left, shorter'⟩) => .ok (c :: text, ⟨left, by simp; omega⟩)
  | c :: rest =>
      if c.toNat < 0x20 then .error ⟨rest⟩
      else
        match stringTail skimmed rest with
        | .error stop => .error stop
        | .ok (text, ⟨left, shorter⟩) => .ok (c :: text, ⟨left, by simp; omega⟩)
termination_by chars.length
decreasing_by all_goals simp_all <;> omega

/-! ### Values -/

mutual

/-- A value with the blanks in front of it. -/
def value (reading : Reading) (chars : List Char) : Read Json chars :=
  match h : skipSpaces chars with
  | [] => .error ⟨[]⟩
  | head :: tail =>
      have tailShorter : tail.length < chars.length := by
        have := skipSpaces_length_le chars
        rw [h] at this; simp at this; omega
      let word (letters : List Char) (meaning : Json) : Read Json chars :=
        match h : keyword letters tail with
        | .ok rest => .ok (meaning, ⟨rest, by have := keyword_length_le h; omega⟩)
        | .error stop => .error stop
      if head = 'n' then word ['u', 'l', 'l'] .null
      else if head = 't' then word ['r', 'u', 'e'] (.bool true)
      else if head = 'f' then word ['a', 'l', 's', 'e'] (.bool false)
      else if head = '"' then
        match stringTail reading.isSkim tail with
        | .ok (text, ⟨rest, shorter⟩) => .ok (.string (String.ofList text), ⟨rest, by omega⟩)
        | .error stop => .error stop
      else if head = '[' then
        match reading.enter? with
        | none => .error ⟨tail⟩
        | some inner =>
            match h' : skipSpaces tail with
            | ']' :: rest => .ok (.array [], ⟨rest, by
                have := skipSpaces_length_le tail
                rw [h'] at this; simp at this; omega⟩)
            | _ =>
                match items inner 0 tail with
                | .ok (values, ⟨rest, shorter⟩) => .ok (.array values, ⟨rest, by omega⟩)
                | .error stop => .error stop
      else if head = '\x7b' then
        match reading.enter? with
        | none => .error ⟨tail⟩
        | some inner =>
            match h' : skipSpaces tail with
            | '\x7d' :: rest => .ok (.object [], ⟨rest, by
                have := skipSpaces_length_le tail
                rw [h'] at this; simp at this; omega⟩)
            | _ =>
                match fields inner tail with
                | .ok (values, ⟨rest, shorter⟩) => .ok (.object values, ⟨rest, by omega⟩)
                | .error stop => .error stop
      else if head = '-' ∨ head.isDigit then
        match h : number reading.isSkim (head :: tail) with
        | .ok (meaning, rest) => .ok (meaning, ⟨rest, by
            have := number_length_lt h
            simp only [List.length_cons] at this
            omega⟩)
        | .error stop => .error stop
      else .error ⟨tail⟩
termination_by 2 * chars.length

/-- The values of an array from a position up to its closing bracket; there is at least one. -/
def items (reading : Reading) (position : Nat) (chars : List Char) : Read (List Json) chars :=
  match value (reading.item position) chars with
  | .error stop => .error stop
  | .ok (first, ⟨afterFirst, shorter⟩) =>
      match h : skipSpaces afterFirst with
      | [] => .error ⟨[]⟩
      | mark :: tail =>
          have tailShorter : tail.length < chars.length := by
            have := skipSpaces_length_le afterFirst
            rw [h] at this; simp at this; omega
          if mark = ']' then .ok ([first], ⟨tail, tailShorter⟩)
          else if mark = ',' then
            match items reading (position + 1) tail with
            | .ok (others, ⟨rest, shorter'⟩) => .ok (first :: others, ⟨rest, by omega⟩)
            | .error stop => .error stop
          else .error ⟨tail⟩
termination_by 2 * chars.length + 1

/-- The fields of an object up to its closing brace; there is at least one. -/
def fields (reading : Reading) (chars : List Char) : Read (List (String × Json)) chars :=
  match hKey : skipSpaces chars with
  | '"' :: keyChars =>
      match stringTail reading.isSkim keyChars with
      | .error stop => .error stop
      | .ok (key, ⟨afterKey, keyShorter⟩) =>
          match hColon : skipSpaces afterKey with
          | ':' :: valueChars =>
              have valueShorter : valueChars.length < chars.length := by
                have first := skipSpaces_length_le chars
                have second := skipSpaces_length_le afterKey
                rw [hKey] at first
                rw [hColon] at second
                simp at first second
                omega
              let name := String.ofList key
              match value (reading.field name) valueChars with
              | .error stop => .error stop
              | .ok (first, ⟨afterFirst, shorter⟩) =>
                  match h : skipSpaces afterFirst with
                  | [] => .error ⟨[]⟩
                  | mark :: tail =>
                      have tailShorter : tail.length < chars.length := by
                        have := skipSpaces_length_le afterFirst
                        rw [h] at this; simp at this; omega
                      let kept := if (reading.field name).isSkim then [] else [(name, first)]
                      if mark = '\x7d' then .ok (kept, ⟨tail, tailShorter⟩)
                      else if mark = ',' then
                        match fields reading tail with
                        | .ok (others, ⟨rest, shorter'⟩) => .ok (kept ++ others, ⟨rest, by omega⟩)
                        | .error stop => .error stop
                      else .error ⟨tail⟩
          | other => .error ⟨other.tail⟩
  | other => .error ⟨other.tail⟩
termination_by 2 * chars.length + 1

end

/-- The line of the last character that was read. -/
def lineOf (text rest : List Char) : Nat :=
  1 + text.count '\n' - rest.count '\n'

/-- Reads a text that holds one value and blanks around it. The fields of objects stay as they are written. The
error is the line at which reading stops. -/
def readAs (reading : Reading) (text : String) : Except Nat Json :=
  let chars := text.toList
  match value reading chars with
  | .error stop => .error (lineOf chars stop.rest)
  | .ok (meaning, ⟨rest, _⟩) =>
      match skipSpaces rest with
      | [] => .ok meaning
      | _ :: tail => .error (lineOf chars tail)

/-- Reads a text in which at most `depth` containers are nested. -/
def readWithin (depth : Nat) (text : String) : Except Nat Json :=
  readAs (.keep depth .any) text

/-- Reads a text within the usual limit of nesting. -/
def read (text : String) : Except Nat Json :=
  readWithin (depthLimit - 1) text

/-- Reads a text of a shape within the usual limit of nesting. -/
def readShape (shape : Shape) (text : String) : Except Nat Json :=
  readAs (.keep (depthLimit - 1) shape) text

/-- Reads a text as a free-form value, in canonical form. -/
def readCanonical (text : String) : Except Nat Json :=
  (read text).map canonical

end TradingStrategy.Json

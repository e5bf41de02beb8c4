import TradingStrategy.Expr.Basic
import TradingStrategy.Number.Reader
import TradingStrategy.Text.Blank

/-!
Reading expressions.

Owns:
- the cursor, a byte position in a text, and the slices of the text that it is moved by;
- the lexical classes: names, numbers and operators, of which the longest match counts;
- binary operators by climbing their precedences, over unary operators over operands;
- the faults of a text that is no expression, each with the byte position and the fragment it is found at.

The cursor moves by the widths of characters and operators, and some faults are reported at a position that was kept. A
slice that would cut a character is a fault of its own; that no text leads to it is a theorem and not assumed here.
-/

namespace TradingStrategy.Expr

/-! ### Faults -/

/-- Why a text is no expression. -/
inductive Fault where
  | emptyText
  | expected (wanted : Char) (found : Option Char)
  | name
  | memberName
  | number
  | invalidNumber (text : String)
  | doubledOperator (sign : Char)
  | offsetRange (offset : Float)
  | offsetKind
  | offsetTwice
  | separator (found : Char)
  | openArguments
  | character (found : Char)
  | endOfText
  | trailing (rest : String)
  /-- The text was cut at a position that is not between two of its characters. -/
  | splitCharacter
deriving Repr, DecidableEq

/-- A character between single quotes. -/
def quotedChar (c : Char) : String :=
  String.ofList ['\'', c, '\'']

def Fault.message : Fault → String
  | emptyText => "empty expression"
  | expected wanted (some found) => "expected " ++ quotedChar wanted ++ ", found " ++ quotedChar found
  | expected wanted none => "expected " ++ quotedChar wanted ++ ", found end of input"
  | name => "expected identifier"
  | memberName => "expected member name after '.'"
  | number => "expected number"
  | invalidNumber text => "invalid number: " ++ text
  | doubledOperator sign =>
      "unexpected " ++ quotedChar sign ++ ", did you mean '" ++ String.ofList [sign, sign] ++ "'?"
  | offsetRange offset =>
      "history offset " ++ Number.plain offset ++ " out of range (0..=" ++ toString maxOffset ++ ")"
  | offsetKind => "history offset must be a number"
  | offsetTwice => "history offset already applied"
  | separator found => "expected ',' or ')', found " ++ quotedChar found
  | openArguments => "unterminated argument list"
  | character found => "unexpected character " ++ quotedChar found
  | endOfText => "unexpected end of input"
  | trailing rest => "unexpected input after expression: '" ++ rest ++ "'"
  | splitCharacter => "byte index is not a char boundary"

/-- A fault of a text with its place: the byte position and the fragment found there. -/
structure ParseError where
  fault : Fault
  position : Nat
  fragment : String
deriving Repr, DecidableEq

namespace ParseError

/-- This error in place of another one, which stays if the text could not be cut. -/
def unlessSplit (error other : ParseError) : ParseError :=
  if other.fault = .splitCharacter then other else error

/-- The whole message of an error. -/
def message (error : ParseError) : String :=
  "parse error at position " ++ toString error.position ++ " near '" ++ error.fragment ++ "': " ++
    error.fault.message

/-- The text, a caret under the position, and the message, on three lines. -/
def inContext (error : ParseError) (text : String) : String :=
  text ++ "\n" ++ String.ofList (List.replicate error.position ' ') ++ "^\n" ++ error.message

end ParseError

/-! ### Slices of a text -/

/-- The number of bytes of characters. -/
def byteLength (chars : List Char) : Nat :=
  chars.foldr (fun c total => c.utf8Size + total) 0

/-- Cuts characters behind a number of bytes. There is no cut inside a character, nor behind the end. -/
def cut? : List Char → Nat → Option (List Char × List Char)
  | chars, 0 => some ([], chars)
  | [], _ + 1 => none
  | c :: rest, bytes + 1 =>
      if c.utf8Size ≤ bytes + 1 then
        (cut? rest (bytes + 1 - c.utf8Size)).map fun (front, behind) => (c :: front, behind)
      else none

/-- The characters from a byte position on. -/
def from? (input : List Char) (position : Nat) : Option (List Char) :=
  (cut? input position).map Prod.snd

/-- The characters between two byte positions. -/
def between? (input : List Char) (start stop : Nat) : Option (List Char) :=
  if start ≤ stop then (from? input start).bind fun rest => (cut? rest (stop - start)).map Prod.fst else none

theorem byteLength_cons (c : Char) (rest : List Char) : byteLength (c :: rest) = c.utf8Size + byteLength rest :=
  rfl

theorem byteLength_append (front rest : List Char) : byteLength (front ++ rest) = byteLength front + byteLength rest := by
  induction front with
  | nil => exact (Nat.zero_add _).symm
  | cons c tail inductionHypothesis =>
    rw [List.cons_append, byteLength_cons, byteLength_cons, inductionHypothesis, Nat.add_assoc]

theorem append_of_cut? {chars front rest : List Char} {bytes : Nat} (cut : cut? chars bytes = some (front, rest)) :
    chars = front ++ rest ∧ byteLength front = bytes := by
  fun_induction cut? chars bytes generalizing front with
  | case1 chars =>
    obtain ⟨rfl, rfl⟩ := Prod.mk.inj (Option.some.inj cut)
    exact ⟨rfl, rfl⟩
  | case2 => contradiction
  | case3 c tail bytes fits inductionHypothesis =>
    obtain ⟨⟨inner, behind⟩, cutTail, same⟩ := Option.map_eq_some_iff.mp cut
    obtain ⟨rfl, rfl⟩ := Prod.mk.inj same
    obtain ⟨rfl, size⟩ := inductionHypothesis cutTail
    refine ⟨rfl, ?_⟩
    rw [byteLength_cons, size]
    omega
  | case4 => contradiction

/-- What is left from a position on makes up the bytes behind it. -/
theorem from?_length {input rest : List Char} {position : Nat} (here : from? input position = some rest) :
    position + byteLength rest = byteLength input := by
  obtain ⟨⟨front, behind⟩, cut, rfl⟩ := Option.map_eq_some_iff.mp here
  obtain ⟨rfl, size⟩ := append_of_cut? cut
  rw [byteLength_append, size]

/-- The width of the character at the cursor moves it onward within the text. -/
theorem advances {input chars : List Char} {c : Char} {position : Nat} (here : from? input position = some chars)
    (first : chars.head? = some c) :
    position < position + c.utf8Size ∧ position + c.utf8Size ≤ byteLength input := by
  obtain ⟨rest, rfl⟩ := List.head?_eq_some_iff.mp first
  have whole := from?_length here
  have wide := c.utf8Size_pos
  rw [byteLength_cons] at whole
  omega

/-! ### Lexical classes -/

/-- A name starts with an ASCII letter or an underscore. -/
def isNameStart (c : Char) : Bool :=
  c.isAlpha || c = '_'

/-- A name goes on with ASCII letters, digits and underscores. -/
def isNameChar (c : Char) : Bool :=
  c.isAlphanum || c = '_'

/-- The fragment in front: a run of name characters and points, or one character, or the end of the text. -/
def fragmentOf (rest : List Char) : String :=
  match rest.takeWhile (fun c => isNameChar c || c = '.') with
  | [] =>
      match rest with
      | [] => "end of input"
      | c :: _ => String.ofList [c]
  | word => String.ofList word

/-- The binary operator in front and its width in bytes, if there is one. A single sign of an operator that is always
doubled is a fault. -/
def operator? : List Char → Except Fault (Option (BinaryOp × Nat))
  | '<' :: '=' :: _ => .ok (some (.le, 2))
  | '>' :: '=' :: _ => .ok (some (.ge, 2))
  | '=' :: '=' :: _ => .ok (some (.eq, 2))
  | '!' :: '=' :: _ => .ok (some (.ne, 2))
  | '&' :: '&' :: _ => .ok (some (.and, 2))
  | '|' :: '|' :: _ => .ok (some (.or, 2))
  | '+' :: _ => .ok (some (.add, 1))
  | '-' :: _ => .ok (some (.sub, 1))
  | '*' :: _ => .ok (some (.mul, 1))
  | '/' :: _ => .ok (some (.div, 1))
  | '%' :: _ => .ok (some (.rem, 1))
  | '<' :: _ => .ok (some (.lt, 1))
  | '>' :: _ => .ok (some (.gt, 1))
  | '=' :: _ => .error (.doubledOperator '=')
  | '&' :: _ => .error (.doubledOperator '&')
  | '|' :: _ => .error (.doubledOperator '|')
  | _ => .ok none

/-- In front of an operator the cursor is not at the end, and the operator moves it. -/
theorem operator?_moves {input chars : List Char} {position width : Nat} {op : BinaryOp}
    (here : from? input position = some chars) (found : operator? chars = .ok (some (op, width))) :
    position < position + width ∧ position < byteLength input := by
  unfold operator? at found
  split at found <;> simp only [Except.ok.injEq, Option.some.injEq, Prod.mk.injEq, reduceCtorEq] at found
  all_goals
    have := advances here rfl
    omega

/-- The unary operator in front and its width in bytes, if there is one: an exclamation mark directly before an equals
sign is none. -/
def sign? : List Char → Option (UnaryOp × Nat)
  | '-' :: _ => some (.neg, '-'.utf8Size)
  | '+' :: _ => some (.plus, '+'.utf8Size)
  | '!' :: rest => if rest.head? = some '=' then none else some (.not, '!'.utf8Size)
  | _ => none

theorem sign?_moves {input chars : List Char} {position width : Nat} {op : UnaryOp}
    (here : from? input position = some chars) (found : sign? chars = some (op, width)) :
    position < position + width ∧ position < byteLength input := by
  have ofFirst : ∃ c, chars.head? = some c ∧ width = c.utf8Size := by
    unfold sign? at found
    split at found
    · exact ⟨'-', rfl, by simp_all⟩
    · exact ⟨'+', rfl, by simp_all⟩
    · exact ⟨'!', rfl, by simp_all⟩
    · contradiction
  obtain ⟨c, first, rfl⟩ := ofFirst
  have := advances here first
  omega

/-! ### Offsets -/

/-- The number or boolean that an index stands for without evaluation: a literal, or one sign before a number. -/
def constant? : Expr → Option Value
  | literal value => some value
  | unary .neg (literal (.number n)) => some (.number (-n))
  | unary .plus (literal (.number n)) => some (.number n)
  | _ => none

/-- A constant index must be a whole number within the range of offsets and is kept as that number. Every other
index stays as it is. -/
def foldOffset (index : Expr) : Except Fault Expr :=
  match constant? index with
  | none => .ok index
  | some (.number n) =>
      if Number.isWhole n && n ≥ 0.0 && n ≤ Float.ofNat maxOffset then .ok (number n) else .error (.offsetRange n)
  | some (.boolean _) => .error .offsetKind

/-! ### The cursor -/

/-- Where the cursor may be later: not in front of where it was. -/
abbrev Onward (position : Nat) : Type :=
  { next : Nat // position ≤ next }

section Cursor

variable (input : List Char)

/-- The fragment at a position of a text; where the text cannot be cut, that of its end. -/
def fragmentAt (position : Nat) : String :=
  match from? input position with
  | none => "end of input"
  | some rest => fragmentOf rest

/-- A fault at a position. -/
def errorAt (position : Nat) (fault : Fault) : ParseError :=
  { fault := fault, position := position, fragment := fragmentAt input position }

/-- The characters from the cursor on. -/
def remaining (position : Nat) : Except ParseError { rest : List Char // from? input position = some rest } :=
  match (from? input position).attach with
  | none => .error (errorAt input position .splitCharacter)
  | some rest => .ok rest

/-- The characters that the cursor passed. -/
def passed (start stop : Nat) : Except ParseError (List Char) :=
  match between? input start stop with
  | none => .error (errorAt input stop .splitCharacter)
  | some chars => .ok chars

/-- Passes characters of a class, one by one. -/
def skipWhile (inClass : Char → Bool) (position : Nat) : Except ParseError (Onward position) := do
  match ← remaining input position with
  | ⟨[], _⟩ => return ⟨position, Nat.le_refl position⟩
  | ⟨c :: _, here⟩ =>
      have onward := advances here rfl
      if inClass c then
        let ⟨next, later⟩ ← skipWhile inClass (position + c.utf8Size)
        return ⟨next, by omega⟩
      else return ⟨position, Nat.le_refl position⟩
termination_by byteLength input - position

/-- Passes blanks. -/
def skipBlanksAt (position : Nat) : Except ParseError (Onward position) :=
  skipWhile input Text.isBlank position

/-- Passes a character that must stand behind the blanks. -/
def expectAt (wanted : Char) (position : Nat) : Except ParseError (Onward position) := do
  let ⟨start, skipped⟩ ← skipBlanksAt input position
  match ← remaining input start with
  | ⟨[], _⟩ => throw (errorAt input start (.expected wanted none))
  | ⟨c :: _, _⟩ =>
      if c = wanted then return ⟨start + c.utf8Size, by omega⟩
      else throw (errorAt input start (.expected wanted (some c)))

/-- A name at the cursor, as long as it can be. -/
def nameAt (position : Nat) : Except ParseError (List Char × Onward position) := do
  match ← remaining input position with
  | ⟨[], _⟩ => throw (errorAt input position .name)
  | ⟨c :: _, _⟩ =>
      if isNameStart c then
        let ⟨next, later⟩ ← skipWhile input isNameChar position
        let name ← passed input position next
        return (name, ⟨next, later⟩)
      else throw (errorAt input position .name)

/-- Members behind a name, each joined to it by an underscore. There are no blanks around the point. -/
def membersAt (name : List Char) (position : Nat) : Except ParseError (List Char × Onward position) := do
  let ⟨chars, here⟩ ← remaining input position
  if point : chars.head? = some '.' then
    have onward := advances here point
    let start := position + '.'.utf8Size
    let (member, ⟨next, later⟩) ← (nameAt input start).mapError (errorAt input start .memberName).unlessSplit
    let (full, ⟨last, later'⟩) ← membersAt (name ++ '_' :: member) next
    return (full, ⟨last, by omega⟩)
  else return (name, ⟨position, Nat.le_refl position⟩)
termination_by byteLength input - position

/-- Passes digits and at most one point, counting the digits. -/
def skipDigits (pointed : Bool) (digits : Nat) (position : Nat) : Except ParseError (Nat × Onward position) := do
  match ← remaining input position with
  | ⟨[], _⟩ => return (digits, ⟨position, Nat.le_refl position⟩)
  | ⟨c :: _, here⟩ =>
      have onward := advances here rfl
      if c.isDigit then
        let (count, ⟨next, later⟩) ← skipDigits pointed (digits + 1) (position + c.utf8Size)
        return (count, ⟨next, by omega⟩)
      else if c = '.' ∧ pointed = false then
        let (count, ⟨next, later⟩) ← skipDigits true digits (position + c.utf8Size)
        return (count, ⟨next, by omega⟩)
      else return (digits, ⟨position, Nat.le_refl position⟩)
termination_by byteLength input - position

/-- Digits with at most one point, and at least one digit. -/
def numberAt (position : Nat) : Except ParseError (Float × Onward position) := do
  let (digits, ⟨next, later⟩) ← skipDigits input false 0 position
  if digits = 0 then throw (errorAt input position .number)
  else
    let text ← passed input position next
    match Number.parse (String.ofList text) with
    | .ok value => return (value, ⟨next, later⟩)
    | .error _ => throw (errorAt input position (.invalidNumber (String.ofList text)))

/-! ### Expressions -/

mutual

/-- An expression of the binary operators that bind at least as tightly as `least`. -/
def operationAt (least position : Nat) : Except ParseError (Expr × Onward position) := do
  let (left, ⟨next, later⟩) ← signedAt position
  let (whole, ⟨last, later'⟩) ← climbAt least left next
  return (whole, ⟨last, by omega⟩)
termination_by 8 * (byteLength input - position) + 3

/-- Goes on behind a left operand with operators that bind at least as tightly as `least`. The operand on the right of
each is made of the operators that bind more tightly than it. -/
def climbAt (least : Nat) (left : Expr) (position : Nat) : Except ParseError (Expr × Onward position) := do
  let ⟨start, skipped⟩ ← skipBlanksAt input position
  let ⟨chars, here⟩ ← remaining input start
  match found : operator? chars with
  | .error fault => throw (errorAt input start fault)
  | .ok none => return (left, ⟨start, skipped⟩)
  | .ok (some (op, width)) =>
      have onward := operator?_moves here found
      if op.precedence < least then return (left, ⟨start, skipped⟩)
      else
        let (right, ⟨next, later⟩) ← operationAt (op.precedence + 1) (start + width)
        let (whole, ⟨last, later'⟩) ← climbAt least (.binary op left right) next
        return (whole, ⟨last, by omega⟩)
termination_by 8 * (byteLength input - position) + 2

/-- An operand behind any number of unary operators. -/
def signedAt (position : Nat) : Except ParseError (Expr × Onward position) := do
  let ⟨start, skipped⟩ ← skipBlanksAt input position
  let ⟨chars, here⟩ ← remaining input start
  match found : sign? chars with
  | some (op, width) =>
      have onward := sign?_moves here found
      let (arg, ⟨next, later⟩) ← signedAt (start + width)
      return (.unary op arg, ⟨next, by omega⟩)
  | none =>
      let (e, ⟨next, later⟩) ← operandAt start
      return (e, ⟨next, by omega⟩)
termination_by 8 * (byteLength input - position) + 2

/-- A boolean, a name with its members and its arguments or its offset, or another operand. -/
def operandAt (position : Nat) : Except ParseError (Expr × Onward position) := do
  let ⟨start, skipped⟩ ← skipBlanksAt input position
  let ⟨chars, _⟩ ← remaining input start
  if chars.head?.any isNameStart = false then
    let (e, ⟨next, later⟩) ← primaryAt start
    return (e, ⟨next, by omega⟩)
  else
    let (first, ⟨afterFirst, firstLater⟩) ← nameAt input start
    if first = ['t', 'r', 'u', 'e'] then return (.boolean true, ⟨afterFirst, by omega⟩)
    else if first = ['f', 'a', 'l', 's', 'e'] then return (.boolean false, ⟨afterFirst, by omega⟩)
    else
      let (full, ⟨afterName, nameLater⟩) ← membersAt input first afterFirst
      let name := String.ofList full
      let ⟨behind, behindLater⟩ ← skipBlanksAt input afterName
      let ⟨chars, here⟩ ← remaining input behind
      if opens : chars.head? = some '(' then
        have onward := advances here opens
        let (args, ⟨next, later⟩) ← argumentsAt (behind + '('.utf8Size)
        return (.call name args, ⟨next, by omega⟩)
      else if opens : chars.head? = some '[' then
        have onward := advances here opens
        let indexStart := behind + '['.utf8Size
        let (index, ⟨afterIndex, indexLater⟩) ← operationAt 1 indexStart
        let ⟨closed, closedLater⟩ ← expectAt input ']' afterIndex
        let offset ← (foldOffset index).mapError (errorAt input indexStart)
        let ⟨last, lastLater⟩ ← skipBlanksAt input closed
        let ⟨chars, _⟩ ← remaining input last
        if chars.head? = some '[' then throw (errorAt input last .offsetTwice)
        else return (.lookback (.identifier name) offset, ⟨last, by omega⟩)
      else return (.identifier name, ⟨behind, by omega⟩)
termination_by 8 * (byteLength input - position) + 1

/-- A number, or an expression in parentheses. -/
def primaryAt (position : Nat) : Except ParseError (Expr × Onward position) := do
  let ⟨start, skipped⟩ ← skipBlanksAt input position
  match ← remaining input start with
  | ⟨[], _⟩ => throw (errorAt input start .endOfText)
  | ⟨c :: _, here⟩ =>
      have onward := advances here rfl
      if c.isDigit ∨ c = '.' then
        let (value, ⟨next, later⟩) ← numberAt input start
        return (.number value, ⟨next, by omega⟩)
      else if c = '(' then
        let (inner, ⟨afterInner, innerLater⟩) ← operationAt 1 (start + c.utf8Size)
        let ⟨next, later⟩ ← expectAt input ')' afterInner
        return (inner, ⟨next, by omega⟩)
      else throw (errorAt input start (.character c))
termination_by 8 * (byteLength input - position)

/-- The arguments of a call behind its opening parenthesis, up to the closing one. -/
def argumentsAt (position : Nat) : Except ParseError (List Expr × Onward position) := do
  let ⟨start, skipped⟩ ← skipBlanksAt input position
  let ⟨chars, _⟩ ← remaining input start
  if chars.head? = some ')' then return ([], ⟨start + ')'.utf8Size, by omega⟩)
  else
    let (args, ⟨next, later⟩) ← argumentsFromAt start
    return (args, ⟨next, by omega⟩)
termination_by 8 * (byteLength input - position) + 5

/-- At least one argument, and the others behind commas. -/
def argumentsFromAt (position : Nat) : Except ParseError (List Expr × Onward position) := do
  let (arg, ⟨afterArg, argLater⟩) ← operationAt 1 position
  let ⟨start, skipped⟩ ← skipBlanksAt input afterArg
  match ← remaining input start with
  | ⟨[], _⟩ => throw (errorAt input start .openArguments)
  | ⟨c :: _, here⟩ =>
      have onward := advances here rfl
      if c = ',' then
        let (others, ⟨next, later⟩) ← argumentsFromAt (start + c.utf8Size)
        return (arg :: others, ⟨next, by omega⟩)
      else if c = ')' then return ([arg], ⟨start + c.utf8Size, by omega⟩)
      else throw (errorAt input start (.separator c))
termination_by 8 * (byteLength input - position) + 4

end

end Cursor

/-- Reads a text that is an expression. -/
def parse (text : String) : Except ParseError Expr := do
  let input := text.toList
  let ⟨start, _⟩ ← skipBlanksAt input 0
  if byteLength input ≤ start then throw (errorAt input start .emptyText)
  else
    let (whole, ⟨next, _⟩) ← operationAt input 1 start
    let ⟨last, _⟩ ← skipBlanksAt input next
    if last < byteLength input then
      let ⟨rest, _⟩ ← remaining input last
      throw (errorAt input last (.trailing (String.ofList rest)))
    else return whole

end TradingStrategy.Expr

import TradingStrategy.Expr.Parser

/-!
The readers of expressions on the characters that are left.

Owns: for every reader that moves a cursor the reader that takes the characters from there on and leaves some of them,
with a fault that keeps the characters in front of which it was found.

What the grammar says of a text does not depend on where in the text it stands, so it is proved of these readers.
`Proofs.Expr.Cursor` proves that the cursor goes where they go.
-/

namespace TradingStrategy.Expr

/-- A fault, and the characters in front of which it was found. -/
structure Stop where
  fault : Fault
  rest : List Char
deriving Repr, DecidableEq

/-- What is left of characters. -/
abbrev Rest (chars : List Char) : Type :=
  { rest : List Char // rest.length ≤ chars.length }

/-- What is left of characters of which at least one was taken. -/
abbrev Shorter (chars : List Char) : Type :=
  { rest : List Char // rest.length < chars.length }

/-- What a reader answers, without the bound on the characters that it leaves. -/
def outcome {α : Type} {bounded : List Char → Prop} :
    Except Stop (α × { rest : List Char // bounded rest }) → Except Stop (α × List Char)
  | .error stop => .error stop
  | .ok (value, rest) => .ok (value, rest.val)

theorem exists_of_outcome {α : Type} {bounded : List Char → Prop}
    {answer : Except Stop (α × { rest : List Char // bounded rest })} {value : α} {rest : List Char}
    (isOk : outcome answer = .ok (value, rest)) : ∃ bound, answer = .ok (value, ⟨rest, bound⟩) := by
  rcases answer with stop | ⟨other, left, bound⟩
  · contradiction
  · cases isOk
    exact ⟨bound, rfl⟩

/-! ### Lexical readers -/

/-- What is left behind the blanks in front. -/
def behindBlanks (chars : List Char) : Rest chars :=
  ⟨Text.skipBlanks chars, Text.skipBlanks_length_le chars⟩

theorem behindBlanks_eq {chars rest : List Char} (stands : Text.skipBlanks chars = rest) :
    ∃ shorter, behindBlanks chars = ⟨rest, shorter⟩ :=
  ⟨stands ▸ Text.skipBlanks_length_le chars, Subtype.ext stands⟩

/-- A character that must stand behind the blanks. -/
def expect (wanted : Char) (chars : List Char) : Except Stop (Rest chars) :=
  match behindBlanks chars with
  | ⟨[], _⟩ => .error ⟨.expected wanted none, []⟩
  | ⟨c :: rest, shorter⟩ =>
      if c = wanted then .ok ⟨rest, Nat.le_of_succ_le shorter⟩ else .error ⟨.expected wanted (some c), c :: rest⟩

/-- A name in front, as long as it can be, and what follows it. -/
def name? : List Char → Option (List Char × List Char)
  | [] => none
  | c :: rest =>
      if isNameStart c then some (c :: rest.takeWhile isNameChar, rest.dropWhile isNameChar) else none

theorem name?_length_lt {chars name rest : List Char} (h : name? chars = some (name, rest)) :
    rest.length < chars.length := by
  cases chars with
  | nil => simp [name?] at h
  | cons c tail =>
    simp only [name?] at h
    split at h
    · simp only [Option.some.injEq, Prod.mk.injEq] at h
      have := (List.dropWhile_sublist (l := tail) isNameChar).length_le
      rw [← h.2]
      simp
      omega
    · simp at h

theorem tail_length_lt {chars : List Char} {c : Char} (first : chars.head? = some c) :
    chars.tail.length < chars.length := by
  obtain ⟨rest, rfl⟩ := List.head?_eq_some_iff.mp first
  exact Nat.lt_succ_self _

/-- Members behind a name, each joined to it by an underscore. -/
def members (name chars : List Char) : Except Stop (List Char × Rest chars) :=
  if point : chars.head? = some '.' then
    match found : name? chars.tail with
    | none => throw ⟨.memberName, chars.tail⟩
    | some (member, behind) => do
        have shorter := Nat.lt_trans (name?_length_lt found) (tail_length_lt point)
        let (full, ⟨rest, shorter'⟩) ← members (name ++ '_' :: member) behind
        return (full, ⟨rest, by omega⟩)
  else return (name, ⟨chars, Nat.le_refl _⟩)
termination_by chars.length

/-- Digits with at most one point, and at least one digit. -/
def number? (chars : List Char) : Option (Float × List Char) :=
  let whole := chars.takeWhile Char.isDigit
  let afterWhole := chars.dropWhile Char.isDigit
  let (fraction, rest) := match afterWhole with
    | '.' :: tail => (tail.takeWhile Char.isDigit, tail.dropWhile Char.isDigit)
    | _ => ([], afterWhole)
  if whole = [] ∧ fraction = [] then none else some (Number.ofParts whole fraction 0, rest)

theorem number?_length_lt {chars rest : List Char} {value : Float} (h : number? chars = some (value, rest)) :
    rest.length < chars.length := by
  have wholeSplit := congrArg List.length (List.takeWhile_append_dropWhile (p := Char.isDigit) (l := chars))
  simp only [List.length_append] at wholeSplit
  unfold number? at h
  simp only at h
  split at h
  · next tail dropped =>
    have tailLe := (List.dropWhile_sublist (l := tail) Char.isDigit).length_le
    rw [dropped] at wholeSplit
    simp only [List.length_cons] at wholeSplit
    split at h
    · simp at h
    · simp only [Option.some.injEq, Prod.mk.injEq] at h
      rw [← h.2]
      omega
  · split at h
    · simp at h
    · next nonempty =>
      simp only [and_true] at nonempty
      have := List.length_pos_iff.mpr nonempty
      simp only [Option.some.injEq, Prod.mk.injEq] at h
      rw [← h.2]
      omega

theorem operator?_drop_lt {chars : List Char} {op : BinaryOp} {width : Nat}
    (found : operator? chars = .ok (some (op, width))) : (chars.drop width).length < chars.length := by
  unfold operator? at found
  split at found <;> simp only [Except.ok.injEq, Option.some.injEq, Prod.mk.injEq, reduceCtorEq] at found
  all_goals
    rw [← found.2, List.length_drop]
    simp only [List.length_cons]
    omega

/-- The binary operator in front, and what follows it. -/
def takeOperator (chars : List Char) : Except Stop (Option (BinaryOp × Shorter chars)) :=
  match found : operator? chars with
  | .error fault => .error ⟨fault, chars⟩
  | .ok none => .ok none
  | .ok (some (op, width)) => .ok (some (op, ⟨chars.drop width, operator?_drop_lt found⟩))

theorem takeOperator_error {chars : List Char} {fault : Fault} (failed : operator? chars = .error fault) :
    takeOperator chars = .error ⟨fault, chars⟩ := by
  unfold takeOperator
  split
  · next other =>
    cases failed.symm.trans other
    rfl
  · next other => cases failed.symm.trans other
  · next other => cases failed.symm.trans other

theorem takeOperator_none {chars : List Char} (ended : operator? chars = .ok none) : takeOperator chars = .ok none := by
  unfold takeOperator
  split
  · next other => cases ended.symm.trans other
  · rfl
  · next other => cases ended.symm.trans other

theorem takeOperator_some {chars : List Char} {op : BinaryOp} {width : Nat}
    (found : operator? chars = .ok (some (op, width))) :
    takeOperator chars = .ok (some (op, ⟨chars.drop width, operator?_drop_lt found⟩)) := by
  unfold takeOperator
  split
  · next other => cases found.symm.trans other
  · next other => cases found.symm.trans other
  · next other =>
    cases found.symm.trans other
    rfl

theorem sign?_drop_lt {chars : List Char} {op : UnaryOp} {width : Nat} (found : sign? chars = some (op, width)) :
    (chars.drop width).length < chars.length := by
  unfold sign? at found
  split at found
  · obtain ⟨-, rfl⟩ := Prod.mk.inj (Option.some.inj found)
    exact Nat.lt_succ_self _
  · obtain ⟨-, rfl⟩ := Prod.mk.inj (Option.some.inj found)
    exact Nat.lt_succ_self _
  · split at found
    · contradiction
    · obtain ⟨-, rfl⟩ := Prod.mk.inj (Option.some.inj found)
      exact Nat.lt_succ_self _
  · contradiction

/-- The unary operator in front, and what follows it. -/
def takeSign (chars : List Char) : Option (UnaryOp × Shorter chars) :=
  match found : sign? chars with
  | none => none
  | some (op, width) => some (op, ⟨chars.drop width, sign?_drop_lt found⟩)

theorem takeSign_none {chars : List Char} (ended : sign? chars = none) : takeSign chars = none := by
  unfold takeSign
  split
  · rfl
  · next other => cases ended.symm.trans other

theorem takeSign_some {chars : List Char} {op : UnaryOp} {width : Nat} (found : sign? chars = some (op, width)) :
    takeSign chars = some (op, ⟨chars.drop width, sign?_drop_lt found⟩) := by
  unfold takeSign
  split
  · next other => cases found.symm.trans other
  · next other =>
    cases found.symm.trans other
    rfl

/-! ### Expressions -/

mutual

/-- An expression of the binary operators that bind at least as tightly as `least`. -/
def operation (least : Nat) (chars : List Char) : Except Stop (Expr × Rest chars) := do
  let (left, ⟨behind, shorter⟩) ← signed chars
  let (whole, ⟨rest, shorter'⟩) ← climb least left behind
  return (whole, ⟨rest, by omega⟩)
termination_by 8 * chars.length + 3

/-- Goes on behind a left operand with operators that bind at least as tightly as `least`. -/
def climb (least : Nat) (left : Expr) (chars : List Char) : Except Stop (Expr × Rest chars) := do
  let ⟨start, skipped⟩ := behindBlanks chars
  match ← takeOperator start with
  | none => return (left, ⟨start, skipped⟩)
  | some (op, ⟨behindOperator, taken⟩) =>
      if op.precedence < least then return (left, ⟨start, skipped⟩)
      else
        let (right, ⟨behind, shorter⟩) ← operation (op.precedence + 1) behindOperator
        let (whole, ⟨rest, shorter'⟩) ← climb least (.binary op left right) behind
        return (whole, ⟨rest, by omega⟩)
termination_by 8 * chars.length + 2

/-- An operand behind any number of unary operators. -/
def signed (chars : List Char) : Except Stop (Expr × Rest chars) := do
  let ⟨start, skipped⟩ := behindBlanks chars
  match takeSign start with
  | some (op, ⟨behindSign, taken⟩) =>
      let (arg, ⟨rest, shorter⟩) ← signed behindSign
      return (.unary op arg, ⟨rest, by omega⟩)
  | none =>
      let (e, ⟨rest, shorter⟩) ← operand start
      return (e, ⟨rest, by omega⟩)
termination_by 8 * chars.length + 2

/-- A boolean, a name with its members and its arguments or its offset, or another operand. -/
def operand (chars : List Char) : Except Stop (Expr × Rest chars) := do
  let ⟨start, skipped⟩ := behindBlanks chars
  match found : name? start with
  | none =>
      let (e, ⟨rest, shorter⟩) ← primary start
      return (e, ⟨rest, by omega⟩)
  | some (first, afterFirst) =>
      have firstShorter := name?_length_lt found
      if first = ['t', 'r', 'u', 'e'] then return (.boolean true, ⟨afterFirst, by omega⟩)
      else if first = ['f', 'a', 'l', 's', 'e'] then return (.boolean false, ⟨afterFirst, by omega⟩)
      else
        let (full, ⟨afterName, nameShorter⟩) ← members first afterFirst
        let name := String.ofList full
        let ⟨behind, behindShorter⟩ := behindBlanks afterName
        if opens : behind.head? = some '(' then
          have innerShorter := tail_length_lt opens
          let (args, ⟨rest, shorter⟩) ← arguments behind.tail
          return (.call name args, ⟨rest, by omega⟩)
        else if opens : behind.head? = some '[' then
          have innerShorter := tail_length_lt opens
          let (index, ⟨afterIndex, indexShorter⟩) ← operation 1 behind.tail
          let ⟨closed, closedShorter⟩ ← expect ']' afterIndex
          let offset ← (foldOffset index).mapError fun fault => ⟨fault, behind.tail⟩
          let ⟨rest, shorter⟩ := behindBlanks closed
          if rest.head? = some '[' then throw ⟨.offsetTwice, rest⟩
          else return (.lookback (.identifier name) offset, ⟨rest, by omega⟩)
        else return (.identifier name, ⟨behind, by omega⟩)
termination_by 8 * chars.length + 1

/-- A number, or an expression in parentheses. -/
def primary (chars : List Char) : Except Stop (Expr × Rest chars) := do
  match behindBlanks chars with
  | ⟨[], _⟩ => throw ⟨.endOfText, []⟩
  | ⟨c :: tail, skipped⟩ =>
      have tailShorter := Nat.lt_of_succ_le skipped
      if c.isDigit ∨ c = '.' then
        match found : number? (c :: tail) with
        | none => throw ⟨.number, c :: tail⟩
        | some (value, rest) => return (.number value, ⟨rest, by have := number?_length_lt found; omega⟩)
      else if c = '(' then
        let (inner, ⟨afterInner, innerShorter⟩) ← operation 1 tail
        let ⟨rest, shorter⟩ ← expect ')' afterInner
        return (inner, ⟨rest, by omega⟩)
      else throw ⟨.character c, c :: tail⟩
termination_by 8 * chars.length

/-- The arguments of a call behind its opening parenthesis, up to the closing one. -/
def arguments (chars : List Char) : Except Stop (List Expr × Rest chars) := do
  let ⟨start, skipped⟩ := behindBlanks chars
  if closes : start.head? = some ')' then
    have shorter := tail_length_lt closes
    return ([], ⟨start.tail, by omega⟩)
  else
    let (args, ⟨rest, shorter⟩) ← argumentsFrom start
    return (args, ⟨rest, by omega⟩)
termination_by 8 * chars.length + 5

/-- At least one argument, and the others behind commas. -/
def argumentsFrom (chars : List Char) : Except Stop (List Expr × Rest chars) := do
  let (arg, ⟨afterArg, argShorter⟩) ← operation 1 chars
  match behindBlanks afterArg with
  | ⟨[], _⟩ => throw ⟨.openArguments, []⟩
  | ⟨mark :: tail, skipped⟩ =>
      have tailShorter := Nat.lt_of_succ_le skipped
      if mark = ',' then
        let (others, ⟨rest, shorter⟩) ← argumentsFrom tail
        return (arg :: others, ⟨rest, by omega⟩)
      else if mark = ')' then return ([arg], ⟨tail, by omega⟩)
      else throw ⟨.separator mark, mark :: tail⟩
termination_by 8 * chars.length + 4

end

/-- An expression that makes up all the characters. -/
def parseChars (chars : List Char) : Except Stop Expr := do
  let ⟨start, _⟩ := behindBlanks chars
  if start = [] then throw ⟨.emptyText, start⟩
  else
    let (whole, ⟨rest, _⟩) ← operation 1 start
    let ⟨more, _⟩ := behindBlanks rest
    if more ≠ [] then throw ⟨.trailing (String.ofList more), more⟩ else return whole

end TradingStrategy.Expr

import TradingStrategy.Expr.Basic
import TradingStrategy.Number.Reader
import TradingStrategy.Text.Blank

/-!
The grammar of expressions, said without the reader.

Owns:
- the tokens and their spellings, and how a text falls into tokens: blanks may stand between them, and each token is
  as long as it can be;
- the six levels of binary operators with the operators of each, the operators in front, the operands and the arguments,
  over lists of tokens;
- the indexes that are admitted, and what is kept of them.

Nothing here is taken from the reader, neither its classes of characters nor its precedences. That it accepts exactly
this grammar is proved in `Proofs.Expr.Acceptance`.
-/

namespace TradingStrategy.Expr

/-! ### Tokens -/

/-- What a text of an expression falls into. A name comes with the members behind its points, a number by the digits on
either side of its point. -/
inductive Token where
  | boolean (value : Bool)
  | name (first : List Char) (members : List (List Char))
  | number (whole fraction : List Char)
  | mark (sign : String)
deriving Repr, DecidableEq

/-- An ASCII letter or an underscore, and behind it letters, digits and underscores. -/
def IsName : List Char → Prop
  | [] => False
  | c :: rest => (c.isAlpha = true ∨ c = '_') ∧ ∀ d ∈ rest, d.isAlphanum = true ∨ d = '_'

/-- A name and its members with a character in front of each member. -/
def joined (separator : Char) (first : List Char) (members : List (List Char)) : List Char :=
  first ++ members.flatMap fun member => separator :: member

/-- The signs of the operators, the brackets and the comma. -/
def marks : List String :=
  BinaryOp.all.map BinaryOp.symbol ++ UnaryOp.all.map UnaryOp.symbol ++ ["(", ")", "[", "]", ","]

/-- How tokens are written. The two booleans are no names, but they may be members. -/
inductive Spells : Token → List Char → Prop
  | boolean (value : Bool) : Spells (.boolean value) (Value.boolean value).chars
  | name {first : List Char} {members : List (List Char)} (isFirst : IsName first)
      (notBoolean : ∀ value, first ≠ (Value.boolean value).chars) (areMembers : ∀ member ∈ members, IsName member) :
      Spells (.name first members) (joined '.' first members)
  | whole {digits : List Char} (nonempty : digits ≠ []) (areDigits : ∀ c ∈ digits, c.isDigit = true) :
      Spells (.number digits []) digits
  | pointed {whole fraction : List Char} (nonempty : whole ≠ [] ∨ fraction ≠ [])
      (areDigits : ∀ c ∈ whole ++ fraction, c.isDigit = true) :
      Spells (.number whole fraction) (whole ++ '.' :: fraction)
  | mark {sign : String} (isMark : sign ∈ marks) : Spells (.mark sign) sign.toList

/-- No token that starts here is longer. -/
def Longest (text behind : List Char) : Prop :=
  ∀ token longer, Spells token longer → longer <+: text ++ behind → longer.length ≤ text.length

/-- Characters fall into tokens, and some characters are left; blanks stand where they like. -/
inductive Tokens : List Char → List Token → List Char → Prop
  | done {blanks rest : List Char} (blank : ∀ c ∈ blanks, Text.isBlank c = true) : Tokens (blanks ++ rest) [] rest
  | next {blanks text behind rest : List Char} {token : Token} {tokens : List Token}
      (blank : ∀ c ∈ blanks, Text.isBlank c = true) (spelled : Spells token text) (longest : Longest text behind)
      (others : Tokens behind tokens rest) : Tokens (blanks ++ (text ++ behind)) (token :: tokens) rest

/-! ### Indexes -/

/-- A whole number from 0 to 99. -/
def isOffset (n : Float) : Bool :=
  Number.isWhole n && n ≥ 0.0 && n ≤ Float.ofNat 99

/-- The number that an index stands for by its form alone: a number, or one sign in front of a number. -/
inductive Constant : Expr → Float → Prop
  | number (n : Float) : Constant (number n) n
  | plus (n : Float) : Constant (.unary .plus (number n)) n
  | neg (n : Float) : Constant (.unary .neg (number n)) (-n)

/-- What is kept of an index. A constant must be an offset and is kept as that number, a boolean is no index, and every
other index is kept as it is. -/
inductive Offset : Expr → Expr → Prop
  | folded {index : Expr} {n : Float} (constant : Constant index n) (isOffset : isOffset n = true) :
      Offset index (number n)
  | kept {index : Expr} (notConstant : ∀ n, ¬Constant index n) (notBoolean : ∀ value, index ≠ boolean value) :
      Offset index index

/-! ### Trees -/

/-- The operators of a level, from those that bind loosest to those that bind tightest. -/
def operatorsOf : Nat → List BinaryOp
  | 1 => [.or]
  | 2 => [.and]
  | 3 => [.eq, .ne]
  | 4 => [.lt, .gt, .le, .ge]
  | 5 => [.add, .sub]
  | 6 => [.mul, .div, .rem]
  | _ => []

mutual

/-- Expressions of the binary operators from a level on, each applied to all that stands to its left; behind the sixth
level there are none. -/
inductive Binary : Nat → List Token → Expr → Prop
  | prefixed {tokens : List Token} {e : Expr} (rest : Prefixed tokens e) : Binary 7 tokens e
  | tighter {level : Nat} {tokens : List Token} {e : Expr} (isLevel : level ≤ 6)
      (rest : Binary (level + 1) tokens e) : Binary level tokens e
  | apply {level : Nat} {op : BinaryOp} {lefts rights : List Token} {left right : Expr}
      (ofLevel : op ∈ operatorsOf level) (isLeft : Binary level lefts left)
      (isRight : Binary (level + 1) rights right) :
      Binary level (lefts ++ .mark op.symbol :: rights) (.binary op left right)

/-- Operands behind operators in front. -/
inductive Prefixed : List Token → Expr → Prop
  | operand {tokens : List Token} {e : Expr} (rest : Operand tokens e) : Prefixed tokens e
  | apply {op : UnaryOp} {tokens : List Token} {arg : Expr} (isArg : Prefixed tokens arg) :
      Prefixed (.mark op.symbol :: tokens) (.unary op arg)

/-- Literals, names with at most one list of arguments or one index, and expressions in parentheses. -/
inductive Operand : List Token → Expr → Prop
  | boolean (value : Bool) : Operand [.boolean value] (boolean value)
  | number (whole fraction : List Char) :
      Operand [.number whole fraction] (number (Number.ofParts whole fraction 0))
  | identifier (first : List Char) (members : List (List Char)) :
      Operand [.name first members] (.identifier (String.ofList (joined '_' first members)))
  | call (first : List Char) (members : List (List Char)) {tokens : List Token} {args : List Expr}
      (areArgs : Arguments tokens args) :
      Operand (.name first members :: .mark "(" :: (tokens ++ [.mark ")"]))
        (.call (String.ofList (joined '_' first members)) args)
  | lookback (first : List Char) (members : List (List Char)) {tokens : List Token} {index offset : Expr}
      (isIndex : Binary 1 tokens index) (isOffset : Offset index offset) :
      Operand (.name first members :: .mark "[" :: (tokens ++ [.mark "]"]))
        (.lookback (.identifier (String.ofList (joined '_' first members))) offset)
  | parentheses {tokens : List Token} {e : Expr} (inner : Binary 1 tokens e) :
      Operand (.mark "(" :: (tokens ++ [.mark ")"])) e

/-- The arguments of a call: none, or some with commas between them. -/
inductive Arguments : List Token → List Expr → Prop
  | none : Arguments [] []
  | some {tokens : List Token} {args : List Expr} (areListed : Listed tokens args) : Arguments tokens args

/-- At least one expression, with commas between them. -/
inductive Listed : List Token → List Expr → Prop
  | last {tokens : List Token} {arg : Expr} (isArg : Binary 1 tokens arg) : Listed tokens [arg]
  | more {tokens others : List Token} {arg : Expr} {args : List Expr} (isArg : Binary 1 tokens arg)
      (areOthers : Listed others args) : Listed (tokens ++ .mark "," :: others) (arg :: args)

end

/-- A text is the expression: it falls into tokens that make it up. -/
def Denotes (text : String) (e : Expr) : Prop :=
  ∃ tokens, Tokens text.toList tokens [] ∧ Binary 1 tokens e

/-- What is made of operators from a level on is made of operators from every looser level on. -/
theorem Binary.loosen {level tighter : Nat} {tokens : List Token} {e : Expr} (looser : level ≤ tighter)
    (low : tighter ≤ 7) (binary : Binary tighter tokens e) : Binary level tokens e := by
  induction looser with
  | refl => exact binary
  | step _ inductionHypothesis =>
    apply inductionHypothesis (by omega)
    exact .tighter (by omega) binary

theorem Prefixed.binary {tokens : List Token} {e : Expr} (isPrefixed : Prefixed tokens e) {level : Nat}
    (low : level ≤ 7) : Binary level tokens e :=
  (Binary.prefixed isPrefixed).loosen low (by omega)

/-! ### How texts fall into tokens -/

theorem Tokens.refl (chars : List Char) : Tokens chars [] chars :=
  @Tokens.done [] chars (by simp)

theorem Tokens.append {chars middle rest : List Char} {tokens others : List Token}
    (first : Tokens chars tokens middle) (last : Tokens middle others rest) : Tokens chars (tokens ++ others) rest := by
  induction first with
  | @done blanks middle blank =>
    cases last with
    | @done more rest moreBlank =>
      rw [← List.append_assoc]
      exact .done (by simpa [or_imp, forall_and] using ⟨blank, moreBlank⟩)
    | @next more text behind rest token tokens moreBlank spelled longest others =>
      rw [← List.append_assoc]
      exact .next (by simpa [or_imp, forall_and] using ⟨blank, moreBlank⟩) spelled longest others
  | next blank spelled longest _ inductionHypothesis =>
    exact .next blank spelled longest (inductionHypothesis last)

theorem Tokens.split {chars rest : List Char} {tokens others : List Token}
    (all : Tokens chars (tokens ++ others) rest) : ∃ middle, Tokens chars tokens middle ∧ Tokens middle others rest := by
  induction tokens generalizing chars with
  | nil => exact ⟨chars, .refl chars, all⟩
  | cons token tokens inductionHypothesis =>
    cases all with
    | next blank spelled longest behind =>
      obtain ⟨middle, first, last⟩ := inductionHypothesis behind
      exact ⟨middle, .next blank spelled longest first, last⟩

end TradingStrategy.Expr

import TradingStrategy.Expr.Printer
import TradingStrategy.Proofs.Expr.Acceptance
import TradingStrategy.Proofs.Number.Plain

/-!
Expressions that were read are read back from what is printed of them.

Owns:
- `Printable`: the trees whose texts are read as these trees, and that every tree that was read is one of them if its
  numbers are finite;
- what is printed of a printable tree falls into tokens that make up the tree;
- `parse_text_of_parse`: reading, printing and reading again gives the tree of the first reading.

A printed expression is only ever followed by nothing, a blank, a comma or a closing bracket; with that its tokens do not
depend on where it stands, and the tokens of a tree are those of its parts.
-/

namespace TradingStrategy.Expr

open Text (Ends ends_cons)

/-! ### Printable trees -/

mutual

/-- The number literals of an expression, left to right. -/
def numbers : Expr → List Float
  | literal (.number n) => [n]
  | literal (.boolean _) => []
  | identifier _ => []
  | binary _ left right => numbers left ++ numbers right
  | unary _ arg => numbers arg
  | call _ args => numbersOfAll args
  | lookback object index => numbers object ++ numbers index

/-- The number literals of several expressions. -/
def numbersOfAll : List Expr → List Float
  | [] => []
  | first :: rest => numbers first ++ numbersOfAll rest

end

/-- A name that is no boolean. -/
structure IsWord (name : List Char) : Prop where
  isName : IsName name
  notBoolean : ∀ value, name ≠ (Value.boolean value).chars

/-- Numbers are finite and have no sign, only words are called and indexed, and an index that is a constant is an offset;
there alone a zero may have a sign. -/
inductive Printable : Expr → Prop
  | boolean (value : Bool) : Printable (boolean value)
  | number {n : Float} (finite : n.isFinite = true) (notNegative : Number.isNegative n = false) : Printable (number n)
  | identifier {name : String} (isWord : IsWord name.toList) : Printable (.identifier name)
  | binary {op : BinaryOp} {left right : Expr} (isLeft : Printable left) (isRight : Printable right) :
      Printable (.binary op left right)
  | unary {op : UnaryOp} {arg : Expr} (isArg : Printable arg) : Printable (.unary op arg)
  | call {name : String} {args : List Expr} (isWord : IsWord name.toList) (areArgs : ∀ arg ∈ args, Printable arg) :
      Printable (.call name args)
  | offset {name : String} {n : Float} (isWord : IsWord name.toList) (isOffset : isOffset n = true) :
      Printable (.lookback (.identifier name) (number n))
  | lookback {name : String} {index : Expr} (isWord : IsWord name.toList) (isIndex : Printable index)
      (notConstant : ∀ n, ¬Constant index n) (notBoolean : ∀ value, index ≠ boolean value) :
      Printable (.lookback (.identifier name) index)

theorem joined_isName {first : List Char} {members : List (List Char)} (isFirst : IsName first)
    (areMembers : ∀ member ∈ members, IsName member) : IsName (joined '_' first members) := by
  cases first with
  | nil => exact isFirst.elim
  | cons c rest =>
    obtain ⟨start, others⟩ := isName_cons.mp isFirst
    refine isName_cons.mpr ⟨start, ?_⟩
    intro d among
    rcases List.mem_append.mp among with inFirst | inMembers
    · exact others d inFirst
    · obtain ⟨member, isMember, inMember⟩ := List.mem_flatMap.mp inMembers
      rcases List.mem_cons.mp inMember with rfl | inMember
      · decide
      · exact (areMembers member isMember).chars d inMember

/-- The name of an identifier, with its members joined to it, is one word. -/
theorem Spells.joined_isWord {first text : List Char} {members : List (List Char)}
    (spelled : Spells (.name first members) text) : IsWord (joined '_' first members) := by
  cases spelled with
  | name isFirst notBoolean areMembers =>
    refine ⟨joined_isName isFirst areMembers, ?_⟩
    intro value same
    cases members with
    | nil => exact notBoolean value (by simpa [joined] using same)
    | cons member members =>
      have among : '_' ∈ (Value.boolean value).chars := by
        rw [← same]
        simp [joined]
      cases value <;> exact absurd among (by decide)

theorem Tokens.spelled {chars rest : List Char} {tokens : List Token} (all : Tokens chars tokens rest) :
    ∀ token ∈ tokens, ∃ text, Spells token text := by
  induction all with
  | done => simp
  | @next _ text _ _ token _ _ isSpelled _ _ inductionHypothesis =>
    intro other among
    rcases List.mem_cons.mp among with rfl | among
    · exact ⟨text, isSpelled⟩
    · exact inductionHypothesis other among

mutual

private theorem Binary.printable {level : Nat} {tokens : List Token} {e : Expr} : Binary level tokens e →
    (∀ token ∈ tokens, ∃ text, Spells token text) → (∀ n ∈ e.numbers, n.isFinite = true) → Printable e
  | .prefixed rest, spelled, finite => rest.printable spelled finite
  | .tighter _ rest, spelled, finite => rest.printable spelled finite
  | .apply _ isLeft isRight, spelled, finite =>
      .binary
        (isLeft.printable (fun token among => spelled token (by simp [among]))
          (fun n among => finite n (by simp [numbers, among])))
        (isRight.printable (fun token among => spelled token (by simp [among]))
          (fun n among => finite n (by simp [numbers, among])))

private theorem Prefixed.printable {tokens : List Token} {e : Expr} : Prefixed tokens e →
    (∀ token ∈ tokens, ∃ text, Spells token text) → (∀ n ∈ e.numbers, n.isFinite = true) → Printable e
  | .operand isOperand, spelled, finite => isOperand.printable spelled finite
  | .apply isArg, spelled, finite =>
      .unary (isArg.printable (fun token among => spelled token (by simp [among]))
        (fun n among => finite n (by simpa [numbers] using among)))

private theorem Operand.printable {tokens : List Token} {e : Expr} : Operand tokens e →
    (∀ token ∈ tokens, ∃ text, Spells token text) → (∀ n ∈ e.numbers, n.isFinite = true) → Printable e
  | .boolean value, _, _ => .boolean value
  | .number whole fraction, _, finite =>
      .number (finite _ (by simp [numbers, number])) (Number.Decimal.isNegative_toFloat _)
  | .identifier first members, spelled, _ => by
      obtain ⟨text, isName⟩ := spelled (.name first members) (by simp)
      exact .identifier (by simpa using isName.joined_isWord)
  | .call first members areArgs, spelled, finite => by
      obtain ⟨text, isName⟩ := spelled (.name first members) (by simp)
      apply Printable.call (by simpa using isName.joined_isWord)
      exact areArgs.printable (fun token among => spelled token (by simp [among]))
        (fun n among => finite n (by simpa [numbers] using among))
  | .lookback first members isIndex isOffset, spelled, finite => by
      obtain ⟨text, isName⟩ := spelled (.name first members) (by simp)
      have isWord := isName.joined_isWord
      cases isOffset with
      | folded _ inRange => exact .offset (by simpa using isWord) inRange
      | kept notConstant notBoolean =>
        apply Printable.lookback (by simpa using isWord) _ notConstant notBoolean
        exact isIndex.printable (fun token among => spelled token (by simp [among]))
          (fun n among => finite n (by simp [numbers, among]))
  | .parentheses inner, spelled, finite =>
      inner.printable (fun token among => spelled token (by simp [among])) finite

private theorem Arguments.printable {tokens : List Token} {args : List Expr} : Arguments tokens args →
    (∀ token ∈ tokens, ∃ text, Spells token text) → (∀ n ∈ numbersOfAll args, n.isFinite = true) →
    ∀ arg ∈ args, Printable arg
  | .none, _, _ => by simp
  | .some areListed, spelled, finite => areListed.printable spelled finite

private theorem Listed.printable {tokens : List Token} {args : List Expr} : Listed tokens args →
    (∀ token ∈ tokens, ∃ text, Spells token text) → (∀ n ∈ numbersOfAll args, n.isFinite = true) →
    ∀ arg ∈ args, Printable arg
  | .last isArg, spelled, finite => by
      have printable := isArg.printable spelled (fun n among => finite n (by simp [numbersOfAll, among]))
      simpa using printable
  | .more isArg areOthers, spelled, finite => by
      have first := isArg.printable (fun token among => spelled token (by simp [among]))
        (fun n among => finite n (by simp [numbersOfAll, among]))
      have others := areOthers.printable (fun token among => spelled token (by simp [among]))
        (fun n among => finite n (by simp [numbersOfAll, among]))
      simpa using ⟨first, others⟩

end

/-- What was read is printable, if its numbers are finite. -/
theorem printable_of_parse {text : String} {e : Expr} (read : parse text = .ok e)
    (finite : ∀ n ∈ e.numbers, n.isFinite = true) : Printable e := by
  obtain ⟨tokens, all, derived⟩ := denotes_of_parse read
  exact derived.printable all.spelled finite

/-! ### Tokens of what is printed -/

/-- What does not go on with a name or a number that stands in front. -/
structure Detached (rest : List Char) : Prop where
  noName : Ends isNameChar rest
  noPoint : Ends (· = '.') rest

theorem Detached.noDigit {rest : List Char} (detached : Detached rest) : Ends Char.isDigit rest := by
  intro c isHead
  have none := detached.noName c isHead
  rw [isNameChar_eq, Bool.or_eq_false_iff] at none
  exact none.2

theorem Detached.cons {c : Char} (notName : isNameChar c = false) (notPoint : c ≠ '.') (rest : List Char) :
    Detached (c :: rest) where
  noName := (ends_cons isNameChar c rest).mpr notName
  noPoint := (ends_cons (· = '.') c rest).mpr (decide_eq_false notPoint)

theorem Detached.bracket {sign : String} (isBracket : sign ∈ ["(", ")", "[", "]", ","]) (rest : List Char) :
    Detached (sign.toList ++ rest) := by
  simp only [List.mem_cons, List.not_mem_nil, or_false] at isBracket
  rcases isBracket with rfl | rfl | rfl | rfl | rfl <;> exact .cons (by decide) (by decide) rest

/-- Characters that fall into these tokens in front of all that is detached from them. -/
def Written (chars : List Char) (tokens : List Token) : Prop :=
  ∀ rest, Detached rest → Tokens (chars ++ rest) tokens rest

theorem Tokens.afterBlank {chars rest : List Char} {tokens : List Token} (all : Tokens chars tokens rest) :
    Tokens (' ' :: chars) tokens rest := by
  have blank : ∀ c ∈ [' '], Text.isBlank c = true := by
    intro c among
    rw [List.mem_singleton.mp among]
    decide
  exact (Tokens.done blank).append all

theorem Tokens.cons {text behind rest : List Char} {token : Token} {tokens : List Token} (spelled : Spells token text)
    (longest : Longest text behind) (others : Tokens behind tokens rest) :
    Tokens (text ++ behind) (token :: tokens) rest :=
  @Tokens.next [] _ _ _ _ _ (by simp) spelled longest others

theorem Tokens.afterBracket {sign : String} {chars rest : List Char} {tokens : List Token}
    (isBracket : sign ∈ ["(", ")", "[", "]", ","]) (others : Tokens chars tokens rest) :
    Tokens (sign.toList ++ chars) (.mark sign :: tokens) rest := by
  have isMark : sign ∈ marks := List.mem_append_right _ isBracket
  exact .cons (.mark isMark) (bracket_longest isBracket chars) others

theorem Written.token {token : Token} {text : List Char} (spelled : Spells token text)
    (longest : ∀ rest, Detached rest → Longest text rest) : Written text [token] := by
  intro rest detached
  exact .cons spelled (longest rest detached) (.refl rest)

theorem written_boolean (value : Bool) : Written (Value.boolean value).chars [.boolean value] :=
  .token (.boolean value) fun _ detached => boolean_longest value detached.noName

theorem joined_nil (separator : Char) (first : List Char) : joined separator first [] = first := by
  simp [joined]

theorem written_word {name : List Char} (isWord : IsWord name) : Written name [.name name []] := by
  have spelled : Spells (.name name []) name := by
    have named := Spells.name isWord.isName isWord.notBoolean (show ∀ member ∈ [], IsName member by simp)
    rwa [joined_nil] at named
  apply Written.token spelled
  intro rest detached
  have noMember : ∀ member, IsName member → ¬ '.' :: member <+: rest := by
    rintro member - ⟨more, rfl⟩
    have point := detached.noPoint
    simp at point
  have longest := @name_longest name rest [] isWord.isName (by simp) detached.noName noMember
  rwa [joined_nil] at longest

theorem written_parts {chars whole fraction : List Char} {x : Float} (parts : Number.Parts chars whole fraction x) :
    Written chars [.number whole fraction] := by
  have areDigits := parts.areDigits
  rw [parts.written]
  split
  · next noFraction =>
    rw [noFraction, List.append_nil] at areDigits ⊢
    apply Written.token (.whole parts.nonempty areDigits)
    intro rest detached
    exact whole_longest parts.nonempty areDigits detached.noDigit detached.noPoint
  · apply Written.token (.pointed (.inl parts.nonempty) areDigits)
    intro rest detached
    exact pointed_longest (.inl parts.nonempty) areDigits detached.noDigit

theorem Written.enclosed {opening closing : String} {chars : List Char} {tokens : List Token}
    (written : Written chars tokens) (isOpening : opening ∈ ["(", ")", "[", "]", ","])
    (isClosing : closing ∈ ["(", ")", "[", "]", ","]) :
    Written (opening.toList ++ (chars ++ closing.toList)) (.mark opening :: (tokens ++ [.mark closing])) := by
  intro rest detached
  have inner := written (closing.toList ++ rest) (.bracket isClosing rest)
  have closed := inner.append ((Tokens.refl rest).afterBracket isClosing)
  have whole := closed.afterBracket isOpening
  simpa using whole

theorem Written.afterWord {name opening : String} {chars : List Char} {tokens : List Token}
    (written : Written (opening.toList ++ chars) tokens) (isWord : IsWord name.toList)
    (isOpening : opening ∈ ["(", ")", "[", "]", ","]) :
    Written (name.toList ++ (opening.toList ++ chars)) (.name name.toList [] :: tokens) := by
  intro rest detached
  have others := written rest detached
  rw [List.append_assoc] at others
  have whole := (written_word isWord _ (.bracket isOpening (chars ++ rest))).append others
  simpa using whole

/-! ### Reading back -/

/-- What is printed of an expression falls into tokens that make it up, and needs no parentheses behind an operator. -/
def ReadsBack (e : Expr) : Prop :=
  ∃ tokens, Prefixed tokens e ∧ Written e.chars tokens

theorem readsBack_number {n : Float} (finite : n.isFinite = true) (notNegative : Number.isNegative n = false) :
    ReadsBack (number n) := by
  obtain ⟨whole, fraction, parts⟩ := Number.plainChars_parts finite notNegative
  refine ⟨[.number whole fraction], ?_, written_parts parts⟩
  have operand := Operand.number whole fraction
  rw [parts.reads] at operand
  exact .operand operand

theorem readsBack_identifier {name : String} (isWord : IsWord name.toList) : ReadsBack (.identifier name) := by
  refine ⟨[.name name.toList []], ?_, written_word isWord⟩
  have operand := Operand.identifier name.toList []
  rw [joined_nil, String.ofList_toList] at operand
  exact .operand operand

theorem readsBack_binary {op : BinaryOp} {left right : Expr} (isLeft : ReadsBack left) (isRight : ReadsBack right) :
    ReadsBack (.binary op left right) := by
  obtain ⟨lefts, leftPrefixed, leftWritten⟩ := isLeft
  obtain ⟨rights, rightPrefixed, rightWritten⟩ := isRight
  have low := precedence_le op
  have inner : Binary op.precedence (lefts ++ .mark op.symbol :: rights) (.binary op left right) :=
    .apply (mem_operatorsOf.mpr rfl) (leftPrefixed.binary (by omega)) (rightPrefixed.binary (by omega))
  have written : Written (left.chars ++ ' ' :: (op.symbol.toList ++ ' ' :: right.chars))
      (lefts ++ .mark op.symbol :: rights) := by
    intro rest detached
    have longest : Longest op.symbol.toList (' ' :: (right.chars ++ rest)) :=
      (binary_longest_iff op _).mpr fun _ => by simp
    have rightTokens := (rightWritten rest detached).afterBlank
    have signTokens := (Tokens.cons (.mark (binary_isMark op)) longest rightTokens).afterBlank
    have detachedSign : Detached (' ' :: (op.symbol.toList ++ ' ' :: (right.chars ++ rest))) :=
      .cons (by decide) (by decide) _
    have whole := (leftWritten _ detachedSign).append signTokens
    simpa using whole
  refine ⟨_, .operand (.parentheses (inner.loosen (precedence_pos op) (by omega))), ?_⟩
  have enclosed := @Written.enclosed "(" ")" _ _ written (by decide) (by decide)
  simpa [chars] using enclosed

theorem readsBack_unary {op : UnaryOp} {arg : Expr} (isArg : ReadsBack arg) : ReadsBack (.unary op arg) := by
  obtain ⟨tokens, isPrefixed, written⟩ := isArg
  refine ⟨_, .apply isPrefixed, ?_⟩
  intro rest detached
  have argTokens := written rest detached
  have noEquals : Ends (· = '=') (arg.chars ++ rest) := by
    apply ends_of_skipBlanks (by decide)
    intro c isHead
    have ends := @StartsExpression.ends _ _ _ [] isPrefixed.starts (by simpa using argTokens) c isHead
    simp only [Bool.or_eq_false_iff] at ends
    exact ends.2
  have longest : Longest op.symbol.toList (arg.chars ++ rest) := (unary_longest_iff op _).mpr fun _ => noEquals
  have whole := Tokens.cons (.mark (unary_isMark op)) longest argTokens
  simpa [chars] using whole

theorem readsBack_listed {first : Expr} {args : List Expr} (isFirst : ReadsBack first)
    (areArgs : ∀ arg ∈ args, ReadsBack arg) :
    ∃ tokens, Listed tokens (first :: args) ∧ Written (argumentChars (first :: args)) tokens := by
  induction args generalizing first with
  | nil =>
    obtain ⟨tokens, isPrefixed, written⟩ := isFirst
    exact ⟨tokens, .last (isPrefixed.binary (by omega)), written⟩
  | cons second args inductionHypothesis =>
    obtain ⟨tokens, isPrefixed, written⟩ := isFirst
    obtain ⟨others, areListed, othersWritten⟩ :=
      inductionHypothesis (areArgs second (by simp)) (fun arg among => areArgs arg (by simp [among]))
    refine ⟨_, .more (isPrefixed.binary (by omega)) areListed, ?_⟩
    intro rest detached
    have otherTokens := (othersWritten rest detached).afterBlank
    have commaTokens := @Tokens.afterBracket "," _ _ _ (by decide) otherTokens
    have whole := (written _ (@Detached.bracket "," (by decide) _)).append commaTokens
    simpa [argumentChars] using whole

theorem readsBack_arguments {args : List Expr} (areArgs : ∀ arg ∈ args, ReadsBack arg) :
    ∃ tokens, Arguments tokens args ∧ Written (argumentChars args) tokens := by
  cases args with
  | nil => exact ⟨[], .none, fun rest _ => .refl rest⟩
  | cons first args =>
    obtain ⟨tokens, areListed, written⟩ :=
      readsBack_listed (areArgs first (by simp)) fun arg among => areArgs arg (List.mem_cons_of_mem _ among)
    exact ⟨tokens, .some areListed, written⟩

theorem readsBack_call {name : String} {args : List Expr} (isWord : IsWord name.toList)
    (areArgs : ∀ arg ∈ args, ReadsBack arg) : ReadsBack (.call name args) := by
  obtain ⟨tokens, areArguments, written⟩ := readsBack_arguments areArgs
  have operand := Operand.call name.toList [] areArguments
  rw [joined_nil, String.ofList_toList] at operand
  refine ⟨_, .operand operand, ?_⟩
  have enclosed := (@Written.enclosed "(" ")" _ _ written (by decide) (by decide)).afterWord isWord (by decide)
  simpa [chars] using enclosed

/-- An index is read back as what is kept of it, if it is printed as an expression of which that is kept. -/
theorem readsBack_lookback {name : String} {index offset : Expr} {tokens : List Token} (isWord : IsWord name.toList)
    (isIndex : Prefixed tokens index) (isOffset : Offset index offset) (written : Written offset.chars tokens) :
    ReadsBack (.lookback (.identifier name) offset) := by
  have operand := Operand.lookback name.toList [] (isIndex.binary (by omega)) isOffset
  rw [joined_nil, String.ofList_toList] at operand
  refine ⟨_, .operand operand, ?_⟩
  have enclosed := (@Written.enclosed "[" "]" _ _ written (by decide) (by decide)).afterWord isWord (by decide)
  simpa [chars] using enclosed

/-- The negative zero is printed with its sign, and as an index that sign is folded into the number again. -/
theorem readsBack_offset {name : String} {n : Float} (isWord : IsWord name.toList) (isOffset : isOffset n = true) :
    ReadsBack (.lookback (.identifier name) (number n)) := by
  have ofRange := isOffset
  simp only [Expr.isOffset, Number.isWhole, Bool.and_eq_true, decide_eq_true_eq] at ofRange
  obtain ⟨⟨⟨finite, -⟩, notBelow⟩, -⟩ := ofRange
  cases negative : Number.isNegative n with
  | false =>
    obtain ⟨tokens, isPrefixed, written⟩ := readsBack_number finite negative
    exact readsBack_lookback isWord isPrefixed (.folded (.number n) isOffset) written
  | true =>
    obtain rfl := Number.eq_negativeZero finite negative notBelow
    have zero : ReadsBack (number 0.0) := readsBack_number (by decide) (by decide)
    obtain ⟨tokens, isPrefixed, written⟩ := @readsBack_unary .neg _ zero
    have same : (Expr.unary .neg (number 0.0)).chars = (number (-0.0)).chars := by decide +kernel
    rw [same] at written
    exact readsBack_lookback isWord isPrefixed (.folded (.neg 0.0) isOffset) written

theorem Printable.readsBack {e : Expr} (printable : Printable e) : ReadsBack e := by
  induction printable with
  | boolean value => exact ⟨_, .operand (.boolean value), written_boolean value⟩
  | number finite notNegative => exact readsBack_number finite notNegative
  | identifier isWord => exact readsBack_identifier isWord
  | binary _ _ isLeft isRight => exact readsBack_binary isLeft isRight
  | unary _ isArg => exact readsBack_unary isArg
  | call isWord _ areArgs => exact readsBack_call isWord areArgs
  | offset isWord isOffset => exact readsBack_offset isWord isOffset
  | lookback isWord _ notConstant notBoolean isIndex =>
    obtain ⟨tokens, isPrefixed, written⟩ := isIndex
    exact readsBack_lookback isWord isPrefixed (.kept notConstant notBoolean) written

/-- The text of a printable tree is read as that tree. -/
theorem parse_text {e : Expr} (printable : Printable e) : parse e.text = .ok e := by
  obtain ⟨tokens, isPrefixed, written⟩ := printable.readsBack
  apply parse_of_denotes
  refine ⟨tokens, ?_, isPrefixed.binary (by omega)⟩
  have all := written [] ⟨by simp, by simp⟩
  simpa [text] using all

/-- Reading an expression, printing it and reading that again gives the same tree. -/
theorem parse_text_of_parse {text : String} {e : Expr} (read : parse text = .ok e)
    (finite : ∀ n ∈ e.numbers, n.isFinite = true) : parse e.text = .ok e :=
  parse_text (printable_of_parse read finite)

/-- Two signs in front, a member, the negative zero as an index, and an index in an argument. -/
theorem signed_member_reads_back : ∃ e, parse " - -macd.histogram[ -0]>=max(01.50, volume[lag]) " = .ok e ∧
    e.text = "(--macd_histogram[-0] >= max(1.5, volume[lag]))" ∧ parse e.text = .ok e := by
  have printed : (match parse " - -macd.histogram[ -0]>=max(01.50, volume[lag]) " with
      | .ok e => e.numbers.all Float.isFinite && e.text == "(--macd_histogram[-0] >= max(1.5, volume[lag]))"
      | .error _ => false) = true := by decide +kernel
  match read : parse " - -macd.histogram[ -0]>=max(01.50, volume[lag]) " with
  | .ok e =>
    simp only [read, Bool.and_eq_true, List.all_eq_true, beq_iff_eq] at printed
    exact ⟨e, rfl, printed.2, parse_text_of_parse read printed.1⟩
  | .error _ =>
    rw [read] at printed
    contradiction

end TradingStrategy.Expr

import Mathlib.Data.List.Infix
import Mathlib.Data.List.TakeWhile
import TradingStrategy.Proofs.Expr.Cursor
import TradingStrategy.Proofs.Outcome

/-!
Where the reader of expressions stands.

Owns:
- that readers get past ASCII characters and blanks only, whether they read something or stop at a fault;
- byte positions: the boundaries of a text are the positions at which it can be cut;
- fragments: what a fault shows of the text stands at its position;
- `parse_positions_valid`: readers that start at a boundary between characters end at one and never cut a character, and
  all errors of a text are at boundaries.

Boundaries come from `Proofs.Expr.Cursor`, where the cursor is followed through every reader. What characters are in
front of it says how wide they are, and is read off the readers of the characters that are left.
-/

namespace TradingStrategy.Expr

open Text (skipBlanks)

/-! ### What readers get past -/

/-- A character that the readers get past. -/
def isReadable (c : Char) : Bool :=
  c.toNat < 128 || Text.isBlank c

/-- What is left of characters behind such as the readers get past. -/
def Remains (rest chars : List Char) : Prop :=
  ∃ front, front ++ rest = chars ∧ ∀ c ∈ front, isReadable c = true

theorem Remains.refl (chars : List Char) : Remains chars chars :=
  ⟨[], rfl, by simp⟩

theorem Remains.trans {rest middle chars : List Char} (second : Remains rest middle) (first : Remains middle chars) :
    Remains rest chars := by
  obtain ⟨behind, rfl, readableBehind⟩ := second
  obtain ⟨front, rfl, readable⟩ := first
  exact ⟨front ++ behind, List.append_assoc .., List.forall_mem_append.mpr ⟨readable, readableBehind⟩⟩

theorem remains_cons {c : Char} (readable : isReadable c = true) (rest : List Char) : Remains rest (c :: rest) :=
  ⟨[c], rfl, by simpa using readable⟩

theorem remains_dropWhile {inClass : Char → Bool} (readable : ∀ c, inClass c = true → isReadable c = true)
    (chars : List Char) : Remains (chars.dropWhile inClass) chars :=
  ⟨chars.takeWhile inClass, List.takeWhile_append_dropWhile, fun _ member => readable _ (List.mem_takeWhile_imp member)⟩

theorem isReadable_of_isBlank {c : Char} (blank : Text.isBlank c = true) : isReadable c = true := by
  rw [isReadable, blank, Bool.or_true]

theorem isReadable_of_ascii {c : Char} (ascii : c.toNat < 128) : isReadable c = true := by
  rw [isReadable, decide_eq_true ascii, Bool.true_or]

theorem isReadable_of_isDigit {c : Char} (isDigit : c.isDigit = true) : isReadable c = true := by
  have range := (Text.isDigit_iff c).mp isDigit
  exact isReadable_of_ascii (by omega)

theorem isReadable_of_isNameStart {c : Char} (start : isNameStart c = true) : isReadable c = true := by
  have range := (isNameStart_iff c).mp start
  exact isReadable_of_ascii (by omega)

theorem isReadable_of_isNameChar {c : Char} (inName : isNameChar c = true) : isReadable c = true := by
  rw [isNameChar_eq, Bool.or_eq_true] at inName
  exact inName.elim isReadable_of_isNameStart isReadable_of_isDigit

/-! ### What lexical readers leave -/

theorem skipBlanks_remains (chars : List Char) : Remains (skipBlanks chars) chars :=
  remains_dropWhile (fun _ => isReadable_of_isBlank) chars

theorem tail_remains {chars : List Char} {c : Char} (first : chars.head? = some c) (readable : isReadable c = true) :
    Remains chars.tail chars := by
  obtain ⟨rest, rfl⟩ := List.head?_eq_some_iff.mp first
  exact remains_cons readable rest

theorem name?_remains {chars name rest : List Char} (read : name? chars = some (name, rest)) : Remains rest chars := by
  cases chars with
  | nil => simp [name?] at read
  | cons c tail =>
    simp only [name?] at read
    split at read
    · next starts =>
      simp only [Option.some.injEq, Prod.mk.injEq] at read
      rw [← read.2]
      exact (remains_dropWhile (fun _ => isReadable_of_isNameChar) tail).trans
        (remains_cons (isReadable_of_isNameStart starts) tail)
    · contradiction

theorem number?_remains {chars rest : List Char} {value : Float} (read : number? chars = some (value, rest)) :
    Remains rest chars := by
  have afterDigits := remains_dropWhile fun _ => isReadable_of_isDigit
  have afterWhole := afterDigits chars
  unfold number? at read
  simp only at read
  split at read
  · next tail dropped =>
    rw [dropped] at afterWhole
    split at read
    · contradiction
    · simp only [Option.some.injEq, Prod.mk.injEq] at read
      rw [← read.2]
      exact ((afterDigits tail).trans (remains_cons (by decide) tail)).trans afterWhole
  · split at read
    · contradiction
    · simp only [Option.some.injEq, Prod.mk.injEq] at read
      rw [← read.2]
      exact afterWhole

theorem takeOperator_remains {chars : List Char} {op : BinaryOp} {behind : Shorter chars}
    (taken : takeOperator chars = .ok (some (op, behind))) : Remains behind.val chars := by
  obtain ⟨split, -⟩ := takeOperator_eq_some.mp ⟨behind.property, taken⟩
  have ascii : op.symbol.toList.all fun c => c.toNat < 128 := by cases op <;> rfl
  refine ⟨op.symbol.toList, split.symm, fun c member => isReadable_of_ascii ?_⟩
  exact of_decide_eq_true (List.all_eq_true.mp ascii c member)

theorem takeSign_remains {chars : List Char} {op : UnaryOp} {behind : Shorter chars}
    (taken : takeSign chars = some (op, behind)) : Remains behind.val chars := by
  obtain ⟨split, -⟩ := takeSign_eq_some.mp ⟨behind.property, taken⟩
  have ascii : op.symbol.toList.all fun c => c.toNat < 128 := by cases op <;> rfl
  refine ⟨op.symbol.toList, split.symm, fun c member => isReadable_of_ascii ?_⟩
  exact of_decide_eq_true (List.all_eq_true.mp ascii c member)

/-- A single sign of a doubled operator is the only fault of an operator, and it is found in front of the sign. -/
theorem takeOperator_stop {chars : List Char} {stop : Stop} (failed : takeOperator chars = .error stop) :
    stop.rest = chars := by
  unfold takeOperator at failed
  split at failed
  · rw [← Except.error.inj failed]
  · cases failed
  · cases failed

theorem behindBlanks_remains (chars : List Char) : Remains (behindBlanks chars).val chars :=
  skipBlanks_remains chars

/-! ### What readers of expressions leave -/

/-- Where a reader stands when it ends, with a value or with a fault. -/
def standing {α : Type} {bounded : List Char → Prop} :
    Except Stop (α × { rest : List Char // bounded rest }) → List Char
  | .ok (_, rest) => rest.val
  | .error stop => stop.rest

/-- A sequence of readers ends where its second reader ends, or where the first one stops. -/
theorem remains_bind {α β : Type} {bounded bounded' : List Char → Prop} {chars : List Char}
    {first : Except Stop (α × { rest : List Char // bounded rest })}
    {next : α × { rest : List Char // bounded rest } → Except Stop (β × { rest : List Char // bounded' rest })}
    (remains : Remains (standing first) chars)
    (goesOn : ∀ value rest bound, Remains rest chars → Remains (standing (next (value, ⟨rest, bound⟩))) chars) :
    Remains (standing (first >>= next)) chars := by
  rcases first with stop | ⟨value, rest, bound⟩
  · exact remains
  · exact goesOn value rest bound remains

theorem expect_remains {α : Type} {bounded : List Char → Prop} {wanted : Char} {chars start : List Char}
    {next : Rest start → Except Stop (α × { rest : List Char // bounded rest })} (readable : isReadable wanted = true)
    (atStart : Remains start chars)
    (goesOn : ∀ rest shorter, Remains rest chars → Remains (standing (next ⟨rest, shorter⟩)) chars) :
    Remains (standing (expect wanted start >>= next)) chars := by
  have skipped := (behindBlanks_remains start).trans atStart
  rw [expect]
  generalize behindBlanks start = left at skipped ⊢
  obtain ⟨_ | ⟨c, rest⟩, shorter⟩ := left
  · exact skipped
  · dsimp only
    split
    · next isWanted =>
      subst isWanted
      exact goesOn rest _ ((remains_cons readable rest).trans skipped)
    · exact skipped

theorem members_remains (name chars : List Char) : Remains (standing (members name chars)) chars := by
  induction name, chars using members.induct with
  | case1 name chars point notFound =>
    rw [members, dif_pos point]
    split
    · exact tail_remains point (by decide)
    · next found => cases notFound.symm.trans found
  | case2 name chars point member behind found shorter inductionHypothesis =>
    have behindPoint := (name?_remains found).trans (tail_remains point (by decide))
    rw [members, dif_pos point]
    split
    · next none => cases found.symm.trans none
    · next isMember =>
      cases found.symm.trans isMember
      exact remains_bind (inductionHypothesis.trans behindPoint) fun _ _ _ atRest => atRest
  | case3 name chars noPoint =>
    rw [members, dif_neg noPoint]
    exact .refl chars

mutual

theorem operation_remains (least : Nat) (chars : List Char) : Remains (standing (operation least chars)) chars := by
  rw [operation]
  refine remains_bind (signed_remains chars) ?_
  intro left behind shorter atBehind
  exact remains_bind ((climb_remains least left behind).trans atBehind) fun _ _ _ atRest => atRest
termination_by 8 * chars.length + 3

theorem climb_remains (least : Nat) (left : Expr) (chars : List Char) : Remains (standing (climb least left chars)) chars := by
  have skippedLe := Text.skipBlanks_length_le chars
  have skipped := skipBlanks_remains chars
  rw [climb]
  dsimp only [behindBlanks]
  cases taken : takeOperator (skipBlanks chars) with
  | error stop =>
    show Remains stop.rest chars
    rw [takeOperator_stop taken]
    exact skipped
  | ok found =>
    rw [ok_bind]
    rcases found with _ | ⟨op, behindOperator, shorter⟩
    · exact skipped
    · dsimp only
      split
      · exact skipped
      · have behindSign := (takeOperator_remains taken).trans skipped
        refine remains_bind ((operation_remains (op.precedence + 1) behindOperator).trans behindSign) ?_
        intro right behind rightShorter atBehind
        exact remains_bind ((climb_remains least (.binary op left right) behind).trans atBehind) fun _ _ _ atRest => atRest
termination_by 8 * chars.length + 2

theorem signed_remains (chars : List Char) : Remains (standing (signed chars)) chars := by
  have skippedLe := Text.skipBlanks_length_le chars
  have skipped := skipBlanks_remains chars
  rw [signed]
  dsimp only [behindBlanks]
  split
  · next op behindSign shorter taken =>
    have behind := (takeSign_remains taken).trans skipped
    exact remains_bind ((signed_remains behindSign).trans behind) fun _ _ _ atRest => atRest
  · exact remains_bind ((operand_remains (skipBlanks chars)).trans skipped) fun _ _ _ atRest => atRest
termination_by 8 * chars.length + 2

theorem operand_remains (chars : List Char) : Remains (standing (operand chars)) chars := by
  have skippedLe := Text.skipBlanks_length_le chars
  have skipped := skipBlanks_remains chars
  rw [operand]
  dsimp only [behindBlanks]
  split
  · exact remains_bind ((primary_remains (skipBlanks chars)).trans skipped) fun _ _ _ atRest => atRest
  · next first afterFirst isName =>
    have firstShorter := name?_length_lt isName
    have atFirst := (name?_remains isName).trans skipped
    split
    · exact atFirst
    · split
      · exact atFirst
      · refine remains_bind ((members_remains first afterFirst).trans atFirst) ?_
        intro full afterName nameShorter atName
        have nextLe := Text.skipBlanks_length_le afterName
        have atNext := (skipBlanks_remains afterName).trans atName
        dsimp only
        split
        · next opens =>
          have innerShorter := tail_length_lt opens
          have inside := (tail_remains opens (by decide)).trans atNext
          exact remains_bind ((arguments_remains (skipBlanks afterName).tail).trans inside) fun _ _ _ atRest => atRest
        · split
          · next opens =>
            have innerShorter := tail_length_lt opens
            have inside := (tail_remains opens (by decide)).trans atNext
            refine remains_bind ((operation_remains 1 (skipBlanks afterName).tail).trans inside) ?_
            intro index afterIndex indexShorter atIndex
            refine expect_remains (by decide) atIndex ?_
            intro closed closedShorter atClosed
            -- An offset is judged behind its bracket, and its fault is located in front of the index.
            cases foldOffset index with
            | error fault => exact inside
            | ok offset =>
              have atEnd := (skipBlanks_remains closed).trans atClosed
              dsimp only [Except.mapError, ok_bind]
              split
              · exact atEnd
              · exact atEnd
          · exact atNext
termination_by 8 * chars.length + 1

theorem primary_remains (chars : List Char) : Remains (standing (primary chars)) chars := by
  have skipped := behindBlanks_remains chars
  rw [primary]
  generalize behindBlanks chars = start at skipped ⊢
  obtain ⟨_ | ⟨c, tail⟩, shorter⟩ := start
  · exact skipped
  · have tailShorter := Nat.lt_of_succ_le shorter
    dsimp only
    split
    · split
      · exact skipped
      · next value rest isNumber => exact (number?_remains isNumber).trans skipped
    · split
      · next opens =>
        have inside := (remains_cons (opens ▸ rfl) tail).trans skipped
        refine remains_bind ((operation_remains 1 tail).trans inside) ?_
        intro inner afterInner innerShorter atInner
        exact expect_remains (by decide) atInner fun _ _ atRest => atRest
      · exact skipped
termination_by 8 * chars.length

theorem arguments_remains (chars : List Char) : Remains (standing (arguments chars)) chars := by
  have skippedLe := Text.skipBlanks_length_le chars
  have skipped := skipBlanks_remains chars
  rw [arguments]
  dsimp only [behindBlanks]
  split
  · next closes => exact (tail_remains closes (by decide)).trans skipped
  · exact remains_bind ((argumentsFrom_remains (skipBlanks chars)).trans skipped) fun _ _ _ atRest => atRest
termination_by 8 * chars.length + 5

theorem argumentsFrom_remains (chars : List Char) : Remains (standing (argumentsFrom chars)) chars := by
  rw [argumentsFrom]
  refine remains_bind (operation_remains 1 chars) ?_
  intro arg afterArg argShorter atArg
  have skipped := (behindBlanks_remains afterArg).trans atArg
  dsimp only
  generalize behindBlanks afterArg = start at skipped ⊢
  obtain ⟨_ | ⟨mark, tail⟩, shorter⟩ := start
  · exact skipped
  · have tailShorter := Nat.lt_of_succ_le shorter
    dsimp only
    split
    · next separates =>
      have behind := (remains_cons (separates ▸ rfl) tail).trans skipped
      exact remains_bind ((argumentsFrom_remains tail).trans behind) fun _ _ _ atRest => atRest
    · split
      · next closes => exact (remains_cons (closes ▸ rfl) tail).trans skipped
      · exact skipped
termination_by 8 * chars.length + 4

end

theorem parseChars_remains {chars : List Char} {stop : Stop} (failed : parseChars chars = .error stop) :
    Remains stop.rest chars := by
  have skipped := skipBlanks_remains chars
  have whole := (operation_remains 1 (skipBlanks chars)).trans skipped
  rw [parseChars] at failed
  dsimp only [behindBlanks] at failed
  split at failed
  · cases failed
    exact skipped
  · rcases bind_eq_error failed with inside | ⟨⟨e, rest, shorter⟩, read, failed⟩
    · rw [inside] at whole
      exact whole
    · rw [read] at whole
      dsimp only at failed
      split at failed
      · cases failed
        exact (skipBlanks_remains rest).trans whole
      · contradiction

/-! ### Byte positions -/

theorem byteLength_eq (chars : List Char) : byteLength chars = (String.ofList chars).utf8ByteSize := by
  induction chars with
  | nil => rfl
  | cons c tail inductionHypothesis =>
    have split : String.ofList (c :: tail) = String.singleton c ++ String.ofList tail := by
      rw [String.singleton_eq_ofList, ← String.ofList_append]
      rfl
    rw [split, String.utf8ByteSize_append, String.utf8ByteSize_singleton, ← inductionHypothesis]
    rfl

/-- What is in front of the cursor has as many bytes as its position says. -/
theorem exists_front {text : String} {rest : List Char} {position : Nat} (here : from? text.toList position = some rest) :
    ∃ front : String, text = front ++ String.ofList rest ∧ front.utf8ByteSize = position := by
  obtain ⟨front, split, size⟩ := from?_eq_some.mp here
  refine ⟨String.ofList front, ?_, ?_⟩
  · rw [← String.ofList_append, ← split, String.ofList_toList]
  · rw [← byteLength_eq, size]

/-- The boundaries of a text are the positions at which it can be cut. -/
theorem isValid_iff {text : String} {position : Nat} :
    String.Pos.Raw.IsValid text ⟨position⟩ ↔ ∃ rest, from? text.toList position = some rest := by
  rw [String.Pos.Raw.isValid_iff_exists_append]
  constructor
  · rintro ⟨front, behind, rfl, size⟩
    refine ⟨behind.toList, from?_eq_some.mpr ⟨front.toList, String.toList_append, ?_⟩⟩
    rw [byteLength_eq, String.ofList_toList]
    exact (congrArg String.Pos.Raw.byteIdx size).symm
  · rintro ⟨rest, here⟩
    obtain ⟨front, split, size⟩ := exists_front here
    exact ⟨front, String.ofList rest, split, String.Pos.Raw.ext size.symm⟩

/-- The cursor is behind the last byte of a text only where nothing of it is left. -/
theorem position_eq_size_iff {text : String} {rest : List Char} {position : Nat}
    (here : from? text.toList position = some rest) : position = text.utf8ByteSize ↔ rest = [] := by
  have whole := from?_length here
  rw [byteLength_eq text.toList, String.ofList_toList] at whole
  rw [← byteLength_le_iff here, byteLength_eq text.toList, String.ofList_toList]
  omega

/-! ### Fragments -/

/-- In front of the end of a text stands what no run of characters and no character is. -/
theorem fragmentOf_eq_end {rest : List Char} : fragmentOf rest = "end of input" ↔ rest = [] := by
  constructor
  · intro isEnd
    unfold fragmentOf at isEnd
    split at isEnd
    · split at isEnd
      · rfl
      · have lengths := congrArg String.length isEnd
        rw [String.length_ofList, List.length_singleton] at lengths
        exact absurd lengths (by decide)
    · next word notEmpty =>
      have blank : ' ' ∈ rest.takeWhile fun c => isNameChar c || c = '.' := by
        have chars := congrArg String.toList isEnd
        rw [String.toList_ofList] at chars
        rw [chars]
        decide
      have inClass := List.mem_takeWhile_imp blank
      contradiction
  · rintro rfl
    rfl

theorem fragmentOf_prefix {rest : List Char} (goesOn : rest ≠ []) :
    fragmentOf rest ≠ "" ∧ (fragmentOf rest).toList <+: rest := by
  unfold fragmentOf
  split
  · split
    · contradiction
    · next c tail _ => exact ⟨by simp, by simp⟩
  · next word notEmpty =>
    rw [String.toList_ofList]
    refine ⟨fun empty => notEmpty ?_, List.takeWhile_prefix _⟩
    simpa using congrArg String.toList empty

/-! ### The readers of a text -/

/-- The readers that move the cursor. -/
inductive Reader where
  | characters (inClass : Char → Bool)
  | expected (wanted : Char)
  | name
  | members (first : List Char)
  | number
  | operation (least : Nat)
  | climb (least : Nat) (left : Expr)
  | signed
  | operand
  | primary
  | arguments
  | argumentsFrom

/-- Where a reader leaves the cursor, or its error. -/
def Reader.run (input : List Char) : Reader → Nat → Except ParseError Nat
  | .characters inClass, position => (skipWhile input inClass position).map Subtype.val
  | .expected wanted, position => (expectAt input wanted position).map Subtype.val
  | .name, position => (nameAt input position).map fun read => read.2.val
  | .members first, position => (membersAt input first position).map fun read => read.2.val
  | .number, position => (numberAt input position).map fun read => read.2.val
  | .operation least, position => (operationAt input least position).map fun read => read.2.val
  | .climb least left, position => (climbAt input least left position).map fun read => read.2.val
  | .signed, position => (signedAt input position).map fun read => read.2.val
  | .operand, position => (operandAt input position).map fun read => read.2.val
  | .primary, position => (primaryAt input position).map fun read => read.2.val
  | .arguments, position => (argumentsAt input position).map fun read => read.2.val
  | .argumentsFrom, position => (argumentsFromAt input position).map fun read => read.2.val

/-- The cursor ends between characters, or at a fault between characters that is no cut inside of one. -/
inductive Lands (input : List Char) : Except ParseError Nat → Prop
  | ok {next : Nat} {rest : List Char} (there : from? input next = some rest) : Lands input (.ok next)
  | error {error : ParseError} {rest : List Char} (uncut : error.fault ≠ .splitCharacter)
      (there : from? input error.position = some rest) : Lands input (.error error)

theorem Follows.lands {α : Type} {input chars : List Char} {position : Nat}
    {read : Except ParseError (α × Onward position)} {other : Except Stop (α × Rest chars)}
    (follows : Follows input (Leaves input) read other) : Lands input (read.map fun value => value.2.val) := by
  cases follows with
  | ok same =>
    obtain ⟨there⟩ := same
    exact .ok there
  | error here uncut => exact .error uncut here

theorem Follows.landsThere {input chars : List Char} {position : Nat} {read : Except ParseError (Onward position)}
    {other : Except Stop (Rest chars)} (follows : Follows input (Reaches input) read other) :
    Lands input (read.map Subtype.val) := by
  cases follows with
  | ok same =>
    obtain ⟨there⟩ := same
    exact .ok there
  | error here uncut => exact .error uncut here

theorem Reader.lands (reader : Reader) {input chars : List Char} {position : Nat}
    (here : from? input position = some chars) : Lands input (reader.run input position) := by
  cases reader with
  | characters inClass =>
    rw [run, skipWhile_eq inClass here]
    exact .ok (from?_dropWhile inClass here)
  | expected wanted => exact (expectAt_follows wanted here).landsThere
  | name =>
    rw [run]
    cases isName : name? chars with
    | none =>
      rw [nameAt_eq_error here isName]
      exact .error nofun here
    | some read =>
      obtain ⟨next, later, isRead, there⟩ := nameAt_eq here isName
      rw [isRead]
      exact .ok there
  | members first => exact (membersAt_follows here).lands
  | number =>
    rw [run]
    cases isNumber : number? chars with
    | none =>
      rw [numberAt_eq_error here isNumber]
      exact .error nofun here
    | some read =>
      obtain ⟨next, later, isRead, there⟩ := numberAt_eq here isNumber
      rw [isRead]
      exact .ok there
  | operation least => exact (operationAt_follows least here).lands
  | climb least left => exact (climbAt_follows least left here).lands
  | signed => exact (signedAt_follows here).lands
  | operand => exact (operandAt_follows here).lands
  | primary => exact (primaryAt_follows here).lands
  | arguments => exact (argumentsAt_follows here).lands
  | argumentsFrom => exact (argumentsFromAt_follows here).lands

/-- Wherever between two characters of a text a reader starts, be the text ASCII or not, it leaves the cursor between two
characters, or its error is there; no reader cuts a character. A text that is no expression has its error between two
characters and not behind its end; the fragment is `end of input` exactly if the error is at the end, and otherwise it is
there in the text from the position on. -/
theorem parse_positions_valid (text : String) :
    (∀ (reader : Reader) (position : Nat), String.Pos.Raw.IsValid text ⟨position⟩ →
      (∀ next, reader.run text.toList position = .ok next → String.Pos.Raw.IsValid text ⟨next⟩) ∧
      ∀ error, reader.run text.toList position = .error error →
        error.fault ≠ .splitCharacter ∧ String.Pos.Raw.IsValid text ⟨error.position⟩) ∧
    ∀ error, parse text = .error error →
      error.fault ≠ .splitCharacter ∧
      error.position ≤ text.utf8ByteSize ∧ String.Pos.Raw.IsValid text ⟨error.position⟩ ∧
      (error.fragment = "end of input" ↔ error.position = text.utf8ByteSize) ∧
      (error.position ≠ text.utf8ByteSize → error.fragment ≠ "" ∧
        ∃ front behind, text = front ++ (error.fragment ++ behind) ∧ front.utf8ByteSize = error.position) := by
  constructor
  · intro reader position valid
    obtain ⟨chars, here⟩ := isValid_iff.mp valid
    have lands := reader.lands here
    constructor
    · intro next isNext
      rw [isNext] at lands
      obtain ⟨there⟩ := lands
      exact isValid_iff.mpr ⟨_, there⟩
    · intro error isError
      rw [isError] at lands
      obtain - | ⟨uncut, there⟩ := lands
      exact ⟨uncut, isValid_iff.mpr ⟨_, there⟩⟩
  · intro error failed
    obtain ⟨rest, -, there, isFragment, uncut⟩ := parse_eq_error failed
    have valid := isValid_iff.mpr ⟨rest, there⟩
    rw [isFragment]
    refine ⟨uncut, valid.le_rawEndPos, valid, fragmentOf_eq_end.trans (position_eq_size_iff there).symm, ?_⟩
    intro inside
    have goesOn : rest ≠ [] := fun ended => inside ((position_eq_size_iff there).mpr ended)
    obtain ⟨front, split, size⟩ := exists_front there
    obtain ⟨notEmpty, behind, shown⟩ := fragmentOf_prefix goesOn
    have shownFirst : String.ofList rest = fragmentOf rest ++ String.ofList behind := by
      rw [← String.toList_inj, String.toList_append, String.toList_ofList, String.toList_ofList, shown]
    exact ⟨notEmpty, front, String.ofList behind, split.trans (congrArg (front ++ ·) shownFirst), size⟩

/-- Blanks of three bytes, and a fault that is found behind its index and located in front of it; and in the middle of
the text, the reader of that index. -/
theorem wide_offset_fault_is_located : ∃ error, parse "\u2003close[\u2003101]" = .error error ∧
    error.position = 9 ∧ error.fragment = "\u2003" ∧
    (error.fault ≠ .splitCharacter ∧ error.position ≤ "\u2003close[\u2003101]".utf8ByteSize ∧
      String.Pos.Raw.IsValid "\u2003close[\u2003101]" ⟨error.position⟩ ∧
      (error.fragment = "end of input" ↔ error.position = "\u2003close[\u2003101]".utf8ByteSize) ∧
      (error.position ≠ "\u2003close[\u2003101]".utf8ByteSize → error.fragment ≠ "" ∧
        ∃ front behind, "\u2003close[\u2003101]" = front ++ (error.fragment ++ behind) ∧
          front.utf8ByteSize = error.position)) ∧
    (Reader.operation 1).run "\u2003close[\u2003101]".toList 9 = .ok 15 ∧
    String.Pos.Raw.IsValid "\u2003close[\u2003101]" ⟨15⟩ := by
  have located : (match parse "\u2003close[\u2003101]" with
      | .ok _ => false
      | .error error => error.position == 9 && error.fragment == "\u2003") = true := by decide +kernel
  have index : (Reader.operation 1).run "\u2003close[\u2003101]".toList 9 = .ok 15 := by decide +kernel
  match read : parse "\u2003close[\u2003101]" with
  | .ok _ =>
    rw [read] at located
    contradiction
  | .error error =>
    simp only [read, Bool.and_eq_true, beq_iff_eq] at located
    have valid := parse_positions_valid "\u2003close[\u2003101]"
    have ofError := valid.2 error read
    have atIndex : String.Pos.Raw.IsValid "\u2003close[\u2003101]" ⟨9⟩ := located.1 ▸ ofError.2.2.1
    exact ⟨error, rfl, located.1, located.2, ofError, index, (valid.1 (.operation 1) 9 atIndex).1 15 index⟩

end TradingStrategy.Expr

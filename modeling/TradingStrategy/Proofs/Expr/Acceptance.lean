import TradingStrategy.Proofs.Expr.Cursor
import TradingStrategy.Proofs.Outcome

/-!
The reader accepts exactly the grammar.

Owns:
- soundness: what the climbing reads is derived at its level from the tokens that it took;
- completeness: a derivation is read to its end, if what follows does not go on with it;
- for whole texts, that what is read is denoted and what is denoted is read.

Soundness follows the recursion of the readers. The climbing knows no levels: its invariant is that behind the left
operand no operator stands that is tighter than the last one that was taken. Completeness follows the derivation; its
statement for a level says that reading is the same as climbing on behind the derived expression, because the grammar
groups to the left and the reader does not.
-/

namespace TradingStrategy.Expr

open Text (Ends ends_cons skipBlanks_blanks skipBlanks_skipBlanks)

/-! ### Indexes -/

theorem constant?_eq_number {index : Expr} {n : Float} : constant? index = some (.number n) ↔ Constant index n := by
  constructor
  · fun_cases constant? index with
    | case1 value =>
      rintro ⟨⟩
      exact .number n
    | case2 =>
      rintro ⟨⟩
      exact .neg _
    | case3 =>
      rintro ⟨⟩
      exact .plus _
    | case4 => nofun
  · rintro (_ | _ | _) <;> rfl

theorem constant?_eq_boolean {index : Expr} {value : Bool} :
    constant? index = some (.boolean value) ↔ index = boolean value := by
  constructor
  · fun_cases constant? index with
    | case1 value =>
      rintro ⟨⟩
      rfl
    | _ => nofun
  · rintro rfl
    rfl

/-- An index is kept as the grammar says, and refused where the grammar keeps nothing. -/
theorem foldOffset_eq_ok {index offset : Expr} : foldOffset index = .ok offset ↔ Offset index offset := by
  constructor
  · intro folded
    unfold foldOffset at folded
    split at folded
    · next noConstant =>
      cases folded
      refine .kept (fun n constant => ?_) (fun value isBoolean => ?_)
      · rw [constant?_eq_number.mpr constant] at noConstant
        contradiction
      · rw [constant?_eq_boolean.mpr isBoolean] at noConstant
        contradiction
    · next n constant =>
      split at folded
      · next inRange =>
        cases folded
        exact .folded (constant?_eq_number.mp constant) inRange
      · contradiction
    · contradiction
  · intro kept
    unfold foldOffset
    cases kept with
    | folded constant inRange =>
      rw [constant?_eq_number.mpr constant]
      exact if_pos inRange
    | kept notConstant notBoolean =>
      cases found : constant? index with
      | none => rfl
      | some value =>
        cases value with
        | number n => exact absurd (constant?_eq_number.mp found) (notConstant n)
        | boolean value => exact absurd (constant?_eq_boolean.mp found) (notBoolean value)

/-! ### Marks that stand alone -/

/-- The brackets and the comma are never the beginning of a longer mark. -/
theorem bracket_longest {sign : String} (isBracket : sign ∈ ["(", ")", "[", "]", ","]) (behind : List Char) :
    Longest sign.toList behind := by
  simp only [List.mem_cons, List.not_mem_nil, or_false] at isBracket
  rcases isBracket with rfl | rfl | rfl | rfl | rfl <;>
  · rw [mark_longest_iff (by decide), marks_chars]
    simp [Ends]

theorem Tokens.ofBracket {sign : String} {chars behind rest : List Char} {tokens : List Token}
    (isBracket : sign ∈ ["(", ")", "[", "]", ","]) (split : Text.skipBlanks chars = sign.toList ++ behind)
    (others : Tokens behind tokens rest) : Tokens chars (.mark sign :: tokens) rest := by
  have isMark : sign ∈ marks := List.mem_append_right _ isBracket
  exact .ofFirst split (.mark isMark) (bracket_longest isBracket behind) others

theorem Tokens.ofHead {c : Char} {chars rest : List Char} {tokens : List Token}
    (isBracket : String.ofList [c] ∈ ["(", ")", "[", "]", ","]) (first : (Text.skipBlanks chars).head? = some c)
    (others : Tokens (Text.skipBlanks chars).tail tokens rest) :
    Tokens chars (.mark (String.ofList [c]) :: tokens) rest := by
  obtain ⟨tail, isTail⟩ := List.head?_eq_some_iff.mp first
  rw [isTail] at others
  exact .ofBracket isBracket (by rw [isTail, String.toList_ofList]; rfl) others

theorem expect_eq_ok {wanted : Char} {chars : List Char} {rest : Rest chars} (passed : expect wanted chars = .ok rest) :
    Text.skipBlanks chars = wanted :: rest.val := by
  rw [expect] at passed
  generalize isStart : behindBlanks chars = start at passed
  obtain ⟨_ | ⟨c, tail⟩, shorter⟩ := start
  · contradiction
  · dsimp only at passed
    split at passed
    · next isWanted =>
      cases passed
      exact isWanted ▸ congrArg Subtype.val isStart
    · contradiction

theorem Tokens.ofExpect {wanted : Char} {chars behind : List Char} {shorter : behind.length ≤ chars.length}
    {rest : List Char} {tokens : List Token} (isBracket : String.ofList [wanted] ∈ ["(", ")", "[", "]", ","])
    (passed : expect wanted chars = .ok ⟨behind, shorter⟩) (others : Tokens behind tokens rest) :
    Tokens chars (.mark (String.ofList [wanted]) :: tokens) rest :=
  .ofBracket isBracket (by rw [expect_eq_ok passed, String.toList_ofList]; rfl) others

/-! ### Soundness -/

private theorem word_tokens {chars first rest : List Char} (value : Bool)
    (isName : name? (Text.skipBlanks chars) = some (first, rest)) (isValue : first = (Value.boolean value).chars) :
    Tokens chars [.boolean value] rest := by
  obtain ⟨split, -, ended⟩ := name?_eq_some.mp isName
  subst isValue
  exact .ofFirst split (.boolean value) (boolean_longest value ended) (.refl rest)

/-- A name that was read with its members is the first token, whatever tokens stand behind it. -/
private theorem name_tokens {chars first afterFirst full afterName : List Char}
    (isName : name? (Text.skipBlanks chars) = some (first, afterFirst))
    (notBoolean : ∀ value, first ≠ (Value.boolean value).chars)
    (isFull : outcome (members first afterFirst) = .ok (full, afterName)) :
    ∃ parts, full = joined '_' first parts ∧ ∀ {tokens : List Token} {rest : List Char},
      Tokens afterName tokens rest → Tokens chars (.name first parts :: tokens) rest := by
  obtain ⟨split, isFirst, ended⟩ := name?_eq_some.mp isName
  obtain ⟨parts, areParts, rfl, rfl, nameEnds, noPoint⟩ := (members_eq_ok ended).mp isFull
  refine ⟨parts, rfl, ?_⟩
  intro tokens rest others
  have noMember : ∀ member, IsName member → ¬ '.' :: member <+: afterName := by
    rintro member - ⟨more, same⟩
    rw [← same] at noPoint
    simp at noPoint
  have longest := name_longest isFirst areParts nameEnds noMember
  apply Tokens.ofFirst _ (.name isFirst notBoolean areParts) longest others
  rw [split, joined, List.append_assoc]
  rfl

/-- Behind the blanks stands no operator that binds at least as tightly as a level. -/
private def NoneFrom (level : Nat) (chars : List Char) : Prop :=
  ∀ start, Text.skipBlanks chars = start → ∀ op behind, takeOperator start = .ok (some (op, behind)) →
    op.precedence < level

theorem precedence_pos (op : BinaryOp) : 1 ≤ op.precedence := by
  cases op <;> decide

theorem precedence_le (op : BinaryOp) : op.precedence ≤ 6 := by
  cases op <;> decide

/-- The levels of the grammar are those that the reader climbs. -/
theorem mem_operatorsOf {op : BinaryOp} {level : Nat} : op ∈ operatorsOf level ↔ op.precedence = level := by
  constructor
  · intro among
    unfold operatorsOf at among
    split at among <;> simp only [List.mem_cons, List.not_mem_nil, or_false] at among
    all_goals rcases among with rfl | rfl | rfl | rfl <;> rfl
  · rintro rfl
    cases op <;> decide

mutual

private theorem operation_derives (least : Nat) (chars : List Char) {e : Expr} {rest : Rest chars}
    (isLevel : least ≤ 7) (read : operation least chars = .ok (e, rest)) :
    ∃ tokens, Tokens chars tokens rest.val ∧ Binary least tokens e ∧ NoneFrom least rest.val := by
  rw [operation] at read
  obtain ⟨⟨left, behind, shorter⟩, readLeft, read⟩ := bind_eq_ok read
  obtain ⟨⟨whole, last, shorter'⟩, readWhole, read⟩ := bind_eq_ok read
  cases read
  obtain ⟨lefts, leftTokens, isLeft⟩ := signed_derives chars readLeft
  have tightest : NoneFrom 8 behind := by
    intro start isStart op behind isOperator
    have := precedence_le op
    omega
  exact climb_derives least left behind isLevel (Nat.le_refl 7) tightest leftTokens (.prefixed isLeft) readWhole
termination_by 8 * chars.length + 3

/-- The left operand is made of operators of a level `tight` on, and no tighter one follows; so each further operator
is no tighter than those before it, and what stands to its left is of its level. -/
private theorem climb_derives (least : Nat) (left : Expr) (chars : List Char) {tight : Nat} {e : Expr}
    {rest : Rest chars} {before : List Char} {lefts : List Token} (loose : least ≤ tight) (low : tight ≤ 7)
    (noTighter : NoneFrom (tight + 1) chars) (leftTokens : Tokens before lefts chars) (isLeft : Binary tight lefts left)
    (read : climb least left chars = .ok (e, rest)) :
    ∃ tokens, Tokens before tokens rest.val ∧ Binary least tokens e ∧ NoneFrom least rest.val := by
  have ended : Tokens before lefts (Text.skipBlanks chars) := by
    have all := leftTokens.append (.skipped chars)
    rwa [List.append_nil] at all
  have skippedLe := Text.skipBlanks_length_le chars
  rw [climb] at read
  obtain ⟨found, taken, read⟩ := bind_eq_ok read
  rcases found with _ | ⟨op, behindOperator, shorter⟩
  · cases read
    refine ⟨lefts, ended, isLeft.loosen loose low, ?_⟩
    intro start isStart op behind isOperator
    obtain rfl : Text.skipBlanks chars = start := (skipBlanks_skipBlanks chars).symm.trans isStart
    cases taken.symm.trans isOperator
  · dsimp only at read
    split at read
    · next tooLoose =>
      cases read
      refine ⟨lefts, ended, isLeft.loosen loose low, ?_⟩
      intro start isStart other behind isOperator
      obtain rfl : Text.skipBlanks chars = start := (skipBlanks_skipBlanks chars).symm.trans isStart
      cases taken.symm.trans isOperator
      exact tooLoose
    · next tightEnough =>
      obtain ⟨split, longest⟩ := takeOperator_eq_some.mp ⟨shorter, taken⟩
      have noTighterThanLeft := noTighter _ rfl op ⟨behindOperator, shorter⟩ taken
      have opLow := precedence_le op
      obtain ⟨⟨right, afterRight, rightShorter⟩, readRight, read⟩ := bind_eq_ok read
      obtain ⟨⟨whole, last, lastShorter⟩, readWhole, read⟩ := bind_eq_ok read
      cases read
      obtain ⟨rights, rightTokens, isRight, noTighterRight⟩ :=
        operation_derives (op.precedence + 1) behindOperator (by omega) readRight
      have isLeftOfLevel : Binary op.precedence lefts left := isLeft.loosen (by omega) low
      have grouped := leftTokens.append (.ofFirst split (.mark (binary_isMark op)) longest rightTokens)
      exact climb_derives least (.binary op left right) afterRight (by omega) (by omega) noTighterRight grouped
        (.apply (mem_operatorsOf.mpr rfl) isLeftOfLevel isRight) readWhole
termination_by 8 * chars.length + 2

private theorem signed_derives (chars : List Char) {e : Expr} {rest : Rest chars}
    (read : signed chars = .ok (e, rest)) : ∃ tokens, Tokens chars tokens rest.val ∧ Prefixed tokens e := by
  have skippedLe := Text.skipBlanks_length_le chars
  rw [signed] at read
  dsimp only [behindBlanks] at read
  split at read
  · next op behindSign shorter isSign =>
    obtain ⟨split, longest⟩ := takeSign_eq_some.mp ⟨shorter, isSign⟩
    obtain ⟨⟨arg, afterArg, argShorter⟩, readArg, read⟩ := bind_eq_ok read
    cases read
    obtain ⟨tokens, areTokens, isArg⟩ := signed_derives behindSign readArg
    exact ⟨_, .ofFirst split (.mark (unary_isMark op)) longest areTokens, .apply isArg⟩
  · obtain ⟨⟨inner, behind, shorter⟩, readInner, read⟩ := bind_eq_ok read
    cases read
    obtain ⟨tokens, areTokens, derived⟩ := operand_derives (Text.skipBlanks chars) readInner
    exact ⟨tokens, (Tokens.skipped chars).append areTokens, .operand derived⟩
termination_by 8 * chars.length + 2

private theorem operand_derives (chars : List Char) {e : Expr} {rest : Rest chars}
    (read : operand chars = .ok (e, rest)) : ∃ tokens, Tokens chars tokens rest.val ∧ Operand tokens e := by
  have skippedLe := Text.skipBlanks_length_le chars
  rw [operand] at read
  dsimp only [behindBlanks] at read
  split at read
  · obtain ⟨⟨inner, behind, shorter⟩, readInner, read⟩ := bind_eq_ok read
    cases read
    obtain ⟨tokens, areTokens, derived⟩ := primary_derives (Text.skipBlanks chars) readInner
    exact ⟨tokens, (Tokens.skipped chars).append areTokens, derived⟩
  · next first afterFirst isName =>
    have firstShorter := name?_length_lt isName
    split at read
    · next isTrue =>
      cases read
      exact ⟨_, word_tokens true isName isTrue, .boolean true⟩
    · next notTrue =>
      split at read
      · next isFalse =>
        cases read
        exact ⟨_, word_tokens false isName isFalse, .boolean false⟩
      · next notFalse =>
        have notBoolean : ∀ value, first ≠ (Value.boolean value).chars := by
          rintro (_ | _)
          · exact notFalse
          · exact notTrue
        obtain ⟨⟨full, afterName, nameShorter⟩, isFull, read⟩ := bind_eq_ok read
        obtain ⟨parts, rfl, named⟩ := name_tokens isName notBoolean (congrArg outcome isFull)
        have nextLe := Text.skipBlanks_length_le afterName
        dsimp only at read
        split at read
        · next opens =>
          have innerShorter := tail_length_lt opens
          obtain ⟨⟨args, afterArgs, argsShorter⟩, readArgs, read⟩ := bind_eq_ok read
          cases read
          obtain ⟨tokens, areTokens, areArgs⟩ := arguments_derives (Text.skipBlanks afterName).tail readArgs
          exact ⟨_, named (.ofHead (by decide) opens areTokens), .call first parts areArgs⟩
        · split at read
          · next opens =>
            have innerShorter := tail_length_lt opens
            obtain ⟨⟨index, afterIndex, indexShorter⟩, readIndex, read⟩ := bind_eq_ok read
            obtain ⟨⟨closed, closedShorter⟩, closes, read⟩ := bind_eq_ok read
            obtain ⟨offset, folded, read⟩ := bind_eq_ok read
            obtain ⟨tokens, areTokens, isIndex, -⟩ :=
              operation_derives 1 (Text.skipBlanks afterName).tail (by omega) readIndex
            dsimp only at read
            split at read
            · contradiction
            · cases read
              have index := areTokens.append (.ofExpect (by decide) closes (.skipped closed))
              exact ⟨_, named (.ofHead (by decide) opens index),
                .lookback first parts isIndex (foldOffset_eq_ok.mp (ok_of_mapError folded))⟩
          · cases read
            exact ⟨_, named (.skipped afterName), .identifier first parts⟩
termination_by 8 * chars.length + 1

private theorem primary_derives (chars : List Char) {e : Expr} {rest : Rest chars}
    (read : primary chars = .ok (e, rest)) : ∃ tokens, Tokens chars tokens rest.val ∧ Operand tokens e := by
  have skippedLe := Text.skipBlanks_length_le chars
  rw [primary] at read
  generalize isStart : behindBlanks chars = start at read
  obtain ⟨_ | ⟨c, tail⟩, shorter⟩ := start
  · contradiction
  · have starts : Text.skipBlanks chars = c :: tail := congrArg Subtype.val isStart
    have tailShorter := Nat.lt_of_succ_le shorter
    dsimp only at read
    split at read
    · split at read
      · contradiction
      · next value afterNumber isNumber =>
        cases read
        obtain ⟨whole, fraction, text, split, spelled, longest, rfl⟩ := number?_eq_some.mp isNumber
        exact ⟨_, .ofFirst (starts.trans split) spelled longest (.refl _), .number whole fraction⟩
    · split at read
      · next opens =>
        subst opens
        obtain ⟨⟨inner, afterInner, innerShorter⟩, readInner, read⟩ := bind_eq_ok read
        obtain ⟨⟨closed, closedShorter⟩, closes, read⟩ := bind_eq_ok read
        cases read
        obtain ⟨tokens, areTokens, derived, -⟩ := operation_derives 1 tail (by omega) readInner
        have inside := areTokens.append (.ofExpect (by decide) closes (.refl closed))
        exact ⟨_, .ofBracket (by decide) starts inside, .parentheses derived⟩
      · contradiction
termination_by 8 * chars.length

private theorem arguments_derives (chars : List Char) {args : List Expr} {rest : Rest chars}
    (read : arguments chars = .ok (args, rest)) :
    ∃ tokens, Tokens chars (tokens ++ [.mark ")"]) rest.val ∧ Arguments tokens args := by
  have skippedLe := Text.skipBlanks_length_le chars
  rw [arguments] at read
  dsimp only [behindBlanks] at read
  split at read
  · next closes =>
    cases read
    exact ⟨[], .ofHead (by decide) closes (.refl _), .none⟩
  · obtain ⟨⟨inner, behind, shorter⟩, readInner, read⟩ := bind_eq_ok read
    cases read
    obtain ⟨tokens, areTokens, areListed⟩ := argumentsFrom_derives (Text.skipBlanks chars) readInner
    exact ⟨tokens, (Tokens.skipped chars).append areTokens, .some areListed⟩
termination_by 8 * chars.length + 5

private theorem argumentsFrom_derives (chars : List Char) {args : List Expr} {rest : Rest chars}
    (read : argumentsFrom chars = .ok (args, rest)) :
    ∃ tokens, Tokens chars (tokens ++ [.mark ")"]) rest.val ∧ Listed tokens args := by
  rw [argumentsFrom] at read
  obtain ⟨⟨arg, afterArg, argShorter⟩, readArg, read⟩ := bind_eq_ok read
  obtain ⟨tokens, areTokens, isArg, -⟩ := operation_derives 1 chars (by omega) readArg
  dsimp only at read
  generalize isStart : behindBlanks afterArg = start at read
  obtain ⟨_ | ⟨mark, tail⟩, shorter⟩ := start
  · contradiction
  · have starts : Text.skipBlanks afterArg = mark :: tail := congrArg Subtype.val isStart
    have tailShorter := Nat.lt_of_succ_le shorter
    dsimp only at read
    split at read
    · next separates =>
      subst separates
      obtain ⟨⟨others, afterOthers, othersShorter⟩, readOthers, read⟩ := bind_eq_ok read
      cases read
      obtain ⟨more, moreTokens, areOthers⟩ := argumentsFrom_derives tail readOthers
      refine ⟨tokens ++ .mark "," :: more, ?_, .more isArg areOthers⟩
      rw [List.append_assoc]
      exact areTokens.append (.ofBracket (by decide) starts moreTokens)
    · split at read
      · next closes =>
        subst closes
        cases read
        have closed : Tokens afterArg [.mark ")"] tail := .ofBracket (by decide) starts (.refl _)
        exact ⟨tokens, areTokens.append closed, .last isArg⟩
      · contradiction
termination_by 8 * chars.length + 4

end

/-! ### How levels are read -/

/-- An expression is read as its first operand and then goes on. -/
private theorem outcome_operation (least : Nat) {chars afterLeft : List Char} {left : Expr}
    (readLeft : outcome (signed chars) = .ok (left, afterLeft)) :
    outcome (operation least chars) = outcome (climb least left afterLeft) := by
  obtain ⟨shorter, answer⟩ := exists_of_outcome readLeft
  rw [operation, answer, ok_bind]
  dsimp only
  cases climb least left afterLeft <;> rfl

/-- How the climbing goes on, given the operator that stands in front of the rest. -/
private def goesOn (least : Nat) (left : Expr) (rest : List Char) :
    Except Stop (Option (BinaryOp × Shorter rest)) → Except Stop (Expr × List Char)
  | .error stop => .error stop
  | .ok none => .ok (left, rest)
  | .ok (some (op, behind)) =>
      if op.precedence < least then .ok (left, rest)
      else
        match outcome (operation (op.precedence + 1) behind.val) with
        | .error stop => .error stop
        | .ok (right, afterRight) => outcome (climb least (.binary op left right) afterRight)

private theorem outcome_climb (least : Nat) (left : Expr) (chars : List Char) :
    outcome (climb least left chars) =
      goesOn least left (Text.skipBlanks chars) (takeOperator (Text.skipBlanks chars)) := by
  rw [climb]
  dsimp only [behindBlanks]
  rcases takeOperator (Text.skipBlanks chars) with stop | _ | ⟨op, behind, shorter⟩
  · rfl
  · rfl
  · rw [ok_bind]
    dsimp only [goesOn]
    by_cases tooLoose : op.precedence < least
    · rw [if_pos tooLoose, if_pos tooLoose]
      rfl
    · rw [if_neg tooLoose, if_neg tooLoose]
      rcases operation (op.precedence + 1) behind with stop | ⟨right, afterRight, rightShorter⟩
      · rfl
      · rw [ok_bind]
        dsimp only [outcome]
        cases climb least (.binary op left right) afterRight <;> rfl

/-- Blanks in front do not matter to how the climbing goes on. -/
private theorem outcome_climb_congr (least : Nat) (left : Expr) {chars others : List Char}
    (same : Text.skipBlanks chars = Text.skipBlanks others) :
    outcome (climb least left chars) = outcome (climb least left others) := by
  rw [outcome_climb, outcome_climb, same]

/-! ### Where an expression ends -/

/-- What stands behind the blanks neither goes on with an expression of a level nor with the name at its end. -/
structure Stops (level : Nat) (chars : List Char) : Prop where
  operator : takeOperator (Text.skipBlanks chars) = .ok none ∨
    ∃ op behind, takeOperator (Text.skipBlanks chars) = .ok (some (op, behind)) ∧ op.precedence < level
  noName : Ends (fun c => c = '(' || c = '[' || c = '.') (Text.skipBlanks chars)

theorem Stops.mono {level higher : Nat} {chars : List Char} (stops : Stops level chars) (le : level ≤ higher) :
    Stops higher chars where
  operator := by
    rcases stops.operator with ended | ⟨op, behind, found, lower⟩
    · exact .inl ended
    · exact .inr ⟨op, behind, found, by omega⟩
  noName := stops.noName

theorem Stops.nil (level : Nat) : Stops level [] where
  operator := .inl rfl
  noName := by simp [Text.skipBlanks]

/-- A closing bracket or a comma ends every expression. -/
theorem Stops.ofCloser {level : Nat} {sign : String} {chars rest : List Char} {tokens : List Token}
    (isCloser : sign ∈ [")", "]", ","]) (all : Tokens chars (.mark sign :: tokens) rest) : Stops level chars := by
  obtain ⟨text, behind, split, spelled, -, -⟩ := all.first
  cases spelled
  simp only [List.mem_cons, List.not_mem_nil, or_false] at isCloser
  rcases isCloser with rfl | rfl | rfl <;>
  · refine ⟨.inl (takeOperator_none ?_), by rw [split]; simp⟩
    rw [split]
    rfl

/-- An operator ends the expressions of all tighter levels. -/
theorem Stops.ofOperator {level : Nat} {op : BinaryOp} {chars rest : List Char} {tokens : List Token}
    (lower : op.precedence < level) (all : Tokens chars (.mark op.symbol :: tokens) rest) : Stops level chars := by
  obtain ⟨text, behind, split, spelled, longest, -⟩ := all.first
  cases spelled
  obtain ⟨shorter, taken⟩ := takeOperator_eq_some.mpr ⟨split, longest⟩
  refine ⟨.inr ⟨op, ⟨behind, shorter⟩, taken, lower⟩, ?_⟩
  rw [split]
  cases op <;> simp [BinaryOp.symbol]

private theorem outcome_climb_stops {level : Nat} {chars : List Char} (left : Expr) (stops : Stops level chars) :
    outcome (climb level left chars) = .ok (left, Text.skipBlanks chars) := by
  rw [outcome_climb]
  rcases stops.operator with ended | ⟨op, behind, found, lower⟩
  · rw [ended]
    rfl
  · rw [found]
    exact if_pos lower

/-! ### Operands -/

theorem expect_of_skipBlanks {wanted : Char} {chars rest : List Char} (stands : Text.skipBlanks chars = wanted :: rest) :
    ∃ shorter, expect wanted chars = .ok ⟨rest, shorter⟩ := by
  have skippedLe := Text.skipBlanks_length_le chars
  rw [stands, List.length_cons] at skippedLe
  refine ⟨Nat.le_of_succ_le skippedLe, ?_⟩
  obtain ⟨shorter, isStart⟩ := behindBlanks_eq stands
  rw [expect, isStart]
  exact if_pos rfl

/-- What may stand behind a whole name: nothing that belongs to it, arguments or an index. -/
private inductive BehindName (name : String) (afterName : List Char) : Expr → List Char → Prop
  | nothing (ends : Ends (fun c => c = '(' || c = '[') (Text.skipBlanks afterName)) :
      BehindName name afterName (.identifier name) (Text.skipBlanks afterName)
  | arguments {inner rest : List Char} {args : List Expr} (opens : Text.skipBlanks afterName = '(' :: inner)
      (areArgs : outcome (arguments inner) = .ok (args, rest)) : BehindName name afterName (.call name args) rest
  | index {inner afterIndex rest : List Char} {index offset : Expr}
      (opens : Text.skipBlanks afterName = '[' :: inner)
      (isIndex : outcome (operation 1 inner) = .ok (index, afterIndex))
      (closes : Text.skipBlanks afterIndex = ']' :: rest) (isOffset : foldOffset index = .ok offset)
      (once : Ends (· = '[') (Text.skipBlanks rest)) :
      BehindName name afterName (.lookback (.identifier name) offset) (Text.skipBlanks rest)

private theorem outcome_named {chars first afterFirst full afterName rest : List Char} {e : Expr}
    (isName : name? (Text.skipBlanks chars) = some (first, afterFirst))
    (notBoolean : ∀ value, first ≠ (Value.boolean value).chars)
    (isFull : outcome (members first afterFirst) = .ok (full, afterName))
    (behind : BehindName (String.ofList full) afterName e rest) : outcome (operand chars) = .ok (e, rest) := by
  obtain ⟨nameShorter, isFull⟩ := exists_of_outcome isFull
  rw [operand]
  dsimp only [behindBlanks]
  split
  · next notFound => cases isName.symm.trans notFound
  · next found =>
    cases isName.symm.trans found
    rw [if_neg (show first ≠ ['t', 'r', 'u', 'e'] from notBoolean true),
      if_neg (show first ≠ ['f', 'a', 'l', 's', 'e'] from notBoolean false), isFull, ok_bind]
    dsimp only
    cases behind with
    | nothing ends =>
      have notOpening : ∀ c, (c = '(' || c = '[') = true → (Text.skipBlanks afterName).head? ≠ some c := by
        intro c isBracket isHead
        exact absurd (ends c isHead) (by simp [isBracket])
      rw [dif_neg (notOpening '(' rfl), dif_neg (notOpening '[' rfl)]
      rfl
    | arguments opens areArgs =>
      have isHead : (Text.skipBlanks afterName).head? = some '(' := congrArg List.head? opens
      obtain rfl := congrArg List.tail opens
      obtain ⟨shorter, answer⟩ := exists_of_outcome areArgs
      rw [dif_pos isHead, answer]
      rfl
    | index opens isIndex closes isOffset once =>
      have isHead : (Text.skipBlanks afterName).head? = some '[' := congrArg List.head? opens
      obtain rfl := congrArg List.tail opens
      obtain ⟨shorter, answer⟩ := exists_of_outcome isIndex
      obtain ⟨closedShorter, closed⟩ := expect_of_skipBlanks closes
      rw [dif_neg (by rw [isHead]; decide), dif_pos isHead]
      rw [answer, ok_bind]
      dsimp only
      rw [closed, ok_bind, isOffset]
      dsimp only [Except.mapError, ok_bind]
      rw [if_neg]
      · rfl
      · intro again
        exact absurd (once '[' again) (by decide)

private theorem outcome_boolean {chars rest : List Char} (value : Bool)
    (isName : name? (Text.skipBlanks chars) = some ((Value.boolean value).chars, rest)) :
    outcome (operand chars) = .ok (boolean value, rest) := by
  rw [operand]
  dsimp only [behindBlanks]
  split
  · next notFound => cases isName.symm.trans notFound
  · next found =>
    cases isName.symm.trans found
    cases value <;> rfl

/-- What does not start with a name is a number or stands in parentheses. -/
private theorem outcome_primary {chars : List Char} (noName : name? (Text.skipBlanks chars) = none) :
    outcome (operand chars) = outcome (primary (Text.skipBlanks chars)) := by
  rw [operand]
  dsimp only [behindBlanks]
  split
  · cases primary (Text.skipBlanks chars) <;> rfl
  · next found => cases noName.symm.trans found

private theorem outcome_number {chars tail rest : List Char} {c : Char} {value : Float}
    (starts : Text.skipBlanks chars = c :: tail) (notStart : isNameStart c = false)
    (inNumber : c.isDigit = true ∨ c = '.') (isNumber : number? (c :: tail) = some (value, rest)) :
    outcome (operand chars) = .ok (number value, rest) := by
  obtain ⟨shorter, isStart⟩ := behindBlanks_eq ((skipBlanks_skipBlanks chars).trans starts)
  rw [outcome_primary (starts ▸ name?_eq_none tail notStart), primary, isStart]
  dsimp only
  rw [if_pos inNumber]
  split
  · next notFound => cases isNumber.symm.trans notFound
  · next found =>
    cases isNumber.symm.trans found
    rfl

private theorem outcome_parentheses {chars tail afterInner rest : List Char} {e : Expr}
    (opens : Text.skipBlanks chars = '(' :: tail) (inner : outcome (operation 1 tail) = .ok (e, afterInner))
    (closes : Text.skipBlanks afterInner = ')' :: rest) : outcome (operand chars) = .ok (e, rest) := by
  obtain ⟨shorter, answer⟩ := exists_of_outcome inner
  obtain ⟨closedShorter, closed⟩ := expect_of_skipBlanks closes
  obtain ⟨startShorter, isStart⟩ := behindBlanks_eq ((skipBlanks_skipBlanks chars).trans opens)
  rw [outcome_primary (opens ▸ name?_eq_none tail (by decide)), primary, isStart]
  dsimp only
  rw [if_neg (by decide), if_pos rfl, answer, ok_bind]
  dsimp only
  rw [closed]
  rfl

private theorem outcome_arguments_none {chars rest : List Char} (closes : Text.skipBlanks chars = ')' :: rest) :
    outcome (arguments chars) = .ok ([], rest) := by
  have isHead : (Text.skipBlanks chars).head? = some ')' := congrArg List.head? closes
  obtain rfl := congrArg List.tail closes
  rw [arguments]
  dsimp only [behindBlanks]
  rw [dif_pos isHead]
  rfl

private theorem outcome_arguments_some {chars : List Char} (notCloser : Ends (· = ')') (Text.skipBlanks chars)) :
    outcome (arguments chars) = outcome (argumentsFrom (Text.skipBlanks chars)) := by
  have notHead : (Text.skipBlanks chars).head? ≠ some ')' := fun isHead => absurd (notCloser ')' isHead) (by decide)
  rw [arguments]
  dsimp only [behindBlanks]
  rw [dif_neg notHead]
  cases argumentsFrom (Text.skipBlanks chars) <;> rfl

private theorem outcome_argumentsFrom_last {chars afterArg rest : List Char} {arg : Expr}
    (isArg : outcome (operation 1 chars) = .ok (arg, afterArg))
    (closes : Text.skipBlanks afterArg = ')' :: rest) : outcome (argumentsFrom chars) = .ok ([arg], rest) := by
  obtain ⟨shorter, answer⟩ := exists_of_outcome isArg
  rw [argumentsFrom, answer, ok_bind]
  obtain ⟨startShorter, isStart⟩ := behindBlanks_eq closes
  dsimp only
  rw [isStart]
  dsimp only
  rw [if_neg (by decide), if_pos rfl]
  rfl

private theorem outcome_argumentsFrom_more {chars afterArg tail rest : List Char} {arg : Expr} {args : List Expr}
    (isArg : outcome (operation 1 chars) = .ok (arg, afterArg))
    (separates : Text.skipBlanks afterArg = ',' :: tail) (others : outcome (argumentsFrom tail) = .ok (args, rest)) :
    outcome (argumentsFrom chars) = .ok (arg :: args, rest) := by
  obtain ⟨shorter, answer⟩ := exists_of_outcome isArg
  obtain ⟨othersShorter, otherAnswer⟩ := exists_of_outcome others
  rw [argumentsFrom, answer, ok_bind]
  obtain ⟨startShorter, isStart⟩ := behindBlanks_eq separates
  dsimp only
  rw [isStart]
  dsimp only
  rw [if_pos rfl, otherAnswer]
  rfl

/-! ### Completeness -/

theorem Tokens.nothing {chars rest : List Char} (none : Tokens chars [] rest) :
    Text.skipBlanks chars = Text.skipBlanks rest := by
  cases none with
  | done blank => exact skipBlanks_blanks blank rest

/-- Where a bracket or a comma is the next token, its one character stands behind the blanks. -/
theorem Tokens.firstBracket {c : Char} {chars rest : List Char} {tokens : List Token}
    (all : Tokens chars (.mark (String.ofList [c]) :: tokens) rest) :
    ∃ behind, Text.skipBlanks chars = c :: behind ∧ Tokens behind tokens rest := by
  obtain ⟨text, behind, split, spelled, -, others⟩ := all.first
  cases spelled
  exact ⟨behind, by simpa using split, others⟩

/-- Blanks in front of the first token do not matter. -/
theorem Tokens.skip {chars rest : List Char} {token : Token} {tokens : List Token}
    (all : Tokens chars (token :: tokens) rest) : Tokens (Text.skipBlanks chars) (token :: tokens) rest := by
  obtain ⟨text, behind, split, spelled, longest, others⟩ := all.first
  exact .ofFirst ((skipBlanks_skipBlanks chars).trans split) spelled longest others

/-- Tokens of an expression: there is a first one, and if it is a mark, it opens parentheses or stands in front of an
operand. -/
def StartsExpression (tokens : List Token) : Prop :=
  ∃ token more, tokens = token :: more ∧ ∀ sign, token = .mark sign → sign ∈ ["(", "-", "+", "!"]

mutual

theorem Binary.starts {level : Nat} {tokens : List Token} {e : Expr} : Binary level tokens e → StartsExpression tokens
  | .prefixed rest => rest.starts
  | .tighter _ rest => rest.starts
  | .apply _ isLeft _ => by
      obtain ⟨token, more, rfl, isSign⟩ := isLeft.starts
      exact ⟨token, _, rfl, isSign⟩

theorem Prefixed.starts {tokens : List Token} {e : Expr} : Prefixed tokens e → StartsExpression tokens
  | .operand rest => by
      cases rest <;> exact ⟨_, _, rfl, by simp⟩
  | @Prefixed.apply op _ _ _ => ⟨_, _, rfl, by cases op <;> simp [UnaryOp.symbol]⟩

end

private theorem Listed.starts {tokens : List Token} {args : List Expr} (areListed : Listed tokens args) :
    StartsExpression tokens := by
  cases areListed with
  | last isArg => exact isArg.starts
  | more isArg _ =>
    obtain ⟨token, more, rfl, isSign⟩ := isArg.starts
    exact ⟨token, _, rfl, isSign⟩

/-- The first character of an expression closes nothing and is no equals sign. -/
theorem StartsExpression.ends {chars rest : List Char} {tokens others : List Token} (starts : StartsExpression tokens)
    (all : Tokens chars (tokens ++ others) rest) : Ends (fun c => c = ')' || c = '=') (Text.skipBlanks chars) := by
  obtain ⟨token, more, rfl, isSign⟩ := starts
  obtain ⟨text, behind, split, spelled, -, -⟩ := all.first
  obtain ⟨c, tail, same, startsWith, -⟩ := spelled.starts
  have ofWord : isNameStart c = true ∨ c.isDigit = true ∨ c = '.' → (c = ')' || c = '=') = false := by
    intro inWord
    rw [Bool.or_eq_false_iff]
    constructor <;>
    · apply decide_eq_false
      rintro rfl
      revert inWord
      decide
  rw [split, same, List.cons_append, ends_cons]
  cases spelled with
  | boolean | name => exact ofWord (.inl startsWith)
  | whole | pointed => exact ofWord (.inr startsWith)
  | mark =>
    have among := isSign _ rfl
    simp only [List.mem_cons, List.not_mem_nil, or_false] at among
    rcases among with rfl | rfl | rfl | rfl <;>
    · obtain ⟨rfl, -⟩ := List.cons.inj same
      rfl

/-- No operand starts with the sign of a unary operator. -/
private theorem Operand.noSign {tokens : List Token} {e : Expr} {chars rest : List Char}
    (isOperand : Operand tokens e) (all : Tokens chars tokens rest) : sign? (Text.skipBlanks chars) = none := by
  have noSign : ∀ {c : Char} {more : List Char}, c ≠ '-' → c ≠ '+' → c ≠ '!' → sign? (c :: more) = none := by
    intro c more notMinus notPlus notBang
    unfold sign?
    split <;> simp_all
  have ofWord : ∀ {token : Token} {tokens : List Token}, Tokens chars (token :: tokens) rest →
      (∀ c, token.StartsWith c → isNameStart c = true ∨ c.isDigit = true ∨ c = '.') →
      sign? (Text.skipBlanks chars) = none := by
    intro token tokens all inWord
    obtain ⟨text, behind, split, spelled, -, -⟩ := all.first
    obtain ⟨c, more, rfl, starts, -⟩ := spelled.starts
    rw [split]
    have word := inWord c starts
    apply noSign <;> rintro rfl <;> revert word <;> decide
  cases isOperand with
  | boolean | identifier | call | lookback => exact ofWord all fun _ starts => .inl starts
  | number => exact ofWord all fun _ starts => .inr starts
  | parentheses =>
    obtain ⟨behind, split, -⟩ := all.firstBracket
    rw [split]
    rfl

/-- A reader answers with a value and leaves some characters, up to blanks. -/
private def Reads {α : Type} {bounded : List Char → Prop}
    (answer : Except Stop (α × { rest : List Char // bounded rest })) (value : α) (rest : List Char) : Prop :=
  ∃ left, Text.skipBlanks left = Text.skipBlanks rest ∧ outcome answer = .ok (value, left)

/-- What completeness says of a level: what is derived is read as part of every expression of looser operators, which
goes on behind it, if what follows is no tighter than the level. -/
private structure ReadAt (level : Nat) (tokens : List Token) (e : Expr) : Prop where
  goesOn : ∀ {least chars rest}, least ≤ level → Tokens chars tokens rest → Stops (level + 1) rest →
    outcome (operation least chars) = outcome (climb least e rest)

/-- What is derived at a level is read as an expression of that level, if that ends there. -/
private theorem ReadAt.ends {level : Nat} {tokens : List Token} {e : Expr} (isRead : ReadAt level tokens e)
    {chars rest : List Char} (all : Tokens chars tokens rest) (stops : Stops level rest) :
    Reads (operation level chars) e rest := by
  have goesOn := isRead.goesOn (Nat.le_refl level) all (stops.mono (Nat.le_succ level))
  exact ⟨Text.skipBlanks rest, skipBlanks_skipBlanks rest, goesOn.trans (outcome_climb_stops e stops)⟩

private theorem ReadAt.tighter {level : Nat} {tokens : List Token} {e : Expr} (rest : ReadAt (level + 1) tokens e) :
    ReadAt level tokens e where
  goesOn := fun loose all stops => rest.goesOn (by omega) all (stops.mono (by omega))

/-- The left operand is read with the operator still in front, which is tight enough to be taken; the operand on its
right ends where the whole does. -/
private theorem ReadAt.apply {level : Nat} {op : BinaryOp} {lefts rights : List Token} {left right : Expr}
    (ofLevel : op ∈ operatorsOf level) (isLeft : ReadAt level lefts left) (isRight : ReadAt (level + 1) rights right) :
    ReadAt level (lefts ++ .mark op.symbol :: rights) (.binary op left right) := by
  obtain rfl := mem_operatorsOf.mp ofLevel
  constructor
  intro least chars rest loose all stops
  obtain ⟨middle, leftTokens, others⟩ := all.split
  obtain ⟨text, behind, split, spelled, longest, rightTokens⟩ := others.first
  cases spelled
  obtain ⟨shorter, isOperator⟩ := takeOperator_eq_some.mpr ⟨split, longest⟩
  obtain ⟨afterRight, same, answer⟩ := isRight.ends rightTokens stops
  rw [isLeft.goesOn loose leftTokens (.ofOperator (by omega) others), outcome_climb, isOperator, Expr.goesOn,
    if_neg (by omega), answer]
  exact outcome_climb_congr least _ same

/-- Behind an operand stand neither arguments nor an index nor members. -/
theorem Stops.endsName {level : Nat} {chars : List Char} (stops : Stops level chars) :
    Ends (fun c => c = '(' || c = '[') (Text.skipBlanks chars) ∧ Ends (· = '.') chars := by
  constructor
  · intro c isHead
    have none := stops.noName c isHead
    simp only [Bool.or_eq_false_iff] at none ⊢
    exact none.1
  · apply ends_of_skipBlanks (by decide)
    intro c isHead
    have none := stops.noName c isHead
    simp only [Bool.or_eq_false_iff] at none
    exact none.2

/-- A name in front of the tokens is read, and what stands behind it decides what it is. -/
private theorem reads_named {first : List Char} {parts : List (List Char)} {tokens : List Token}
    {chars rest : List Char} {e : Expr} (all : Tokens chars (.name first parts :: tokens) rest)
    (behind : ∀ {afterName}, Tokens afterName tokens rest → Ends (· = '.') afterName ∧
      ∃ left, Text.skipBlanks left = Text.skipBlanks rest ∧
        BehindName (String.ofList (joined '_' first parts)) afterName e left) :
    Reads (operand chars) e rest := by
  obtain ⟨text, afterName, split, spelled, longest, others⟩ := all.first
  obtain ⟨noPoint, left, same, isBehind⟩ := behind others
  cases spelled with
  | name isFirst notBoolean areParts =>
    have ends := ends_of_longest isFirst (fun _ => notBoolean) areParts longest
    have isName : name? (Text.skipBlanks chars) = some (first, dotted parts ++ afterName) := by
      apply name?_eq_some.mpr
      refine ⟨?_, isFirst, ends_dotted ends parts⟩
      rw [split, joined, List.append_assoc]
      rfl
    have isFull : outcome (members first (dotted parts ++ afterName)) = .ok (joined '_' first parts, afterName) :=
      (members_eq_ok (ends_dotted ends parts)).mpr ⟨parts, areParts, rfl, rfl, ends, noPoint⟩
    exact ⟨left, same, outcome_named isName notBoolean isFull isBehind⟩

/-- A closing bracket that is the last token is taken, and what is left is what is left of the tokens. -/
private theorem Tokens.closes {c : Char} {chars rest : List Char} (all : Tokens chars [.mark (String.ofList [c])] rest) :
    ∃ behind, Text.skipBlanks chars = c :: behind ∧ Text.skipBlanks behind = Text.skipBlanks rest := by
  obtain ⟨behind, split, others⟩ := all.firstBracket
  exact ⟨behind, split, others.nothing⟩

/-- What completeness says of operands behind operators in front. -/
private def ReadPrefixed (tokens : List Token) (e : Expr) : Prop :=
  ∀ chars rest, Tokens chars tokens rest → Stops 8 rest → Reads (signed chars) e rest

/-- What completeness says of operands. -/
private def ReadOperand (tokens : List Token) (e : Expr) : Prop :=
  ∀ chars rest, Tokens chars tokens rest → Stops 8 rest → Reads (operand chars) e rest

/-- What completeness says of arguments, with the parenthesis behind them. -/
private def ReadArguments (tokens : List Token) (args : List Expr) : Prop :=
  ∀ chars rest, Tokens chars (tokens ++ [.mark ")"]) rest → Reads (arguments chars) args rest

/-- What completeness says of a list of arguments that is not empty. -/
private def ReadListed (tokens : List Token) (args : List Expr) : Prop :=
  ∀ chars rest, Tokens chars (tokens ++ [.mark ")"]) rest → Reads (argumentsFrom chars) args rest

private theorem ReadAt.prefixed {tokens : List Token} {e : Expr} (isPrefixed : ReadPrefixed tokens e) :
    ReadAt 7 tokens e where
  goesOn := by
    intro least chars rest _ all stops
    obtain ⟨left, same, answer⟩ := isPrefixed _ _ all stops
    rw [outcome_operation least answer]
    exact outcome_climb_congr least e same

/-- In front of a closing bracket or a comma a whole expression is read, up to that mark. -/
private theorem ReadAt.whole {c : Char} {tokens others : List Token} {e : Expr} {chars rest : List Char}
    (isWhole : ReadAt 1 tokens e) (isCloser : String.ofList [c] ∈ [")", "]", ","])
    (all : Tokens chars (tokens ++ .mark (String.ofList [c]) :: others) rest) :
    ∃ afterWhole behind, outcome (operation 1 chars) = .ok (e, afterWhole) ∧
      Text.skipBlanks afterWhole = c :: behind ∧ Tokens behind others rest := by
  obtain ⟨middle, wholeTokens, closer⟩ := all.split
  obtain ⟨afterWhole, same, answer⟩ := isWhole.ends wholeTokens (.ofCloser isCloser closer)
  obtain ⟨behind, split, others⟩ := closer.firstBracket
  exact ⟨afterWhole, behind, answer, same.trans split, others⟩

private theorem ReadPrefixed.operand {tokens : List Token} {e : Expr} (isOperand : Operand tokens e)
    (reads : ReadOperand tokens e) : ReadPrefixed tokens e := by
  intro chars rest all stops
  obtain ⟨token, more, rfl, -⟩ := (Prefixed.operand isOperand).starts
  obtain ⟨left, same, answer⟩ := reads _ _ all.skip stops
  obtain ⟨shorter, answer⟩ := exists_of_outcome answer
  refine ⟨left, same, ?_⟩
  rw [signed]
  dsimp only [behindBlanks]
  rw [takeSign_none (isOperand.noSign all)]
  dsimp only
  rw [answer]
  rfl

private theorem ReadPrefixed.apply {op : UnaryOp} {tokens : List Token} {arg : Expr} (isArg : ReadPrefixed tokens arg) :
    ReadPrefixed (.mark op.symbol :: tokens) (.unary op arg) := by
  intro chars rest all stops
  obtain ⟨text, behind, split, spelled, longest, argTokens⟩ := all.first
  cases spelled
  obtain ⟨signShorter, isSign⟩ := takeSign_eq_some.mpr ⟨split, longest⟩
  obtain ⟨left, same, isAnswer⟩ := isArg _ _ argTokens stops
  obtain ⟨shorter, answer⟩ := exists_of_outcome isAnswer
  refine ⟨left, same, ?_⟩
  rw [signed]
  dsimp only [behindBlanks]
  rw [isSign]
  dsimp only
  rw [answer]
  rfl

private theorem ReadOperand.boolean (value : Bool) : ReadOperand [.boolean value] (boolean value) := by
  intro chars rest all stops
  obtain ⟨text, behind, split, spelled, longest, others⟩ := all.first
  cases spelled
  have ends : Ends isNameChar behind :=
    @ends_of_longest _ _ [] (boolean_isName value) (by simp) (by simp) (by simpa [joined] using longest)
  have isName := name?_eq_some.mpr ⟨split, boolean_isName value, ends⟩
  exact ⟨behind, others.nothing, outcome_boolean value isName⟩

private theorem ReadOperand.number (whole fraction : List Char) :
    ReadOperand [.number whole fraction] (number (Number.ofParts whole fraction 0)) := by
  intro chars rest all stops
  obtain ⟨text, behind, split, spelled, longest, others⟩ := all.first
  obtain ⟨c, more, rfl, inNumber, -⟩ := spelled.starts
  have notStart : isNameStart c = false :=
    Bool.eq_false_iff.mpr fun start => notDigit_of_isNameStart start inNumber
  have isNumber := number?_eq_some.mpr ⟨whole, fraction, c :: more, rfl, spelled, longest, rfl⟩
  exact ⟨behind, others.nothing, outcome_number split notStart inNumber isNumber⟩

private theorem ReadOperand.identifier (first : List Char) (parts : List (List Char)) :
    ReadOperand [.name first parts] (.identifier (String.ofList (joined '_' first parts))) := by
  intro chars rest all stops
  apply reads_named all
  intro afterName others
  have same := others.nothing
  have stopsHere : Stops 8 afterName := ⟨same ▸ stops.operator, same ▸ stops.noName⟩
  exact ⟨stopsHere.endsName.2, _, (skipBlanks_skipBlanks afterName).trans same, .nothing stopsHere.endsName.1⟩

/-- A bracket behind a name is not a point. -/
private theorem noPoint_of_bracket {c : Char} {chars behind : List Char} (split : Text.skipBlanks chars = c :: behind)
    (notPoint : c ≠ '.') : Ends (· = '.') chars := by
  apply ends_of_skipBlanks (by decide)
  rw [split, ends_cons]
  exact decide_eq_false notPoint

private theorem ReadOperand.call {first : List Char} {parts : List (List Char)} {tokens : List Token}
    {args : List Expr} (areArgs : ReadArguments tokens args) :
    ReadOperand (.name first parts :: .mark "(" :: (tokens ++ [.mark ")"]))
      (.call (String.ofList (joined '_' first parts)) args) := by
  intro chars rest all stops
  apply reads_named all
  intro afterName others
  obtain ⟨inner, opens, argTokens⟩ := others.firstBracket
  obtain ⟨left, same, answer⟩ := areArgs _ _ argTokens
  exact ⟨noPoint_of_bracket opens (by decide), left, same, .arguments opens answer⟩

private theorem ReadOperand.lookback {first : List Char} {parts : List (List Char)} {tokens : List Token}
    {index offset : Expr} (isIndex : ReadAt 1 tokens index) (isOffset : Offset index offset) :
    ReadOperand (.name first parts :: .mark "[" :: (tokens ++ [.mark "]"]))
      (.lookback (.identifier (String.ofList (joined '_' first parts))) offset) := by
  intro chars rest all stops
  apply reads_named all
  intro afterName others
  obtain ⟨inner, opens, indexTokens⟩ := others.firstBracket
  obtain ⟨afterIndex, behind, answer, closes, nothing⟩ := isIndex.whole (by decide) indexTokens
  have same := nothing.nothing
  have once : Ends (· = '[') (Text.skipBlanks behind) := by
    intro c isHead
    have noName := stops.endsName.1 c (same ▸ isHead)
    simp only [Bool.or_eq_false_iff] at noName
    exact noName.2
  exact ⟨noPoint_of_bracket opens (by decide), _, (skipBlanks_skipBlanks behind).trans same,
    .index opens answer closes (foldOffset_eq_ok.mpr isOffset) once⟩

private theorem ReadOperand.parentheses {tokens : List Token} {e : Expr} (inner : ReadAt 1 tokens e) :
    ReadOperand (.mark "(" :: (tokens ++ [.mark ")"])) e := by
  intro chars rest all stops
  obtain ⟨tail, opens, innerTokens⟩ := all.firstBracket
  obtain ⟨afterInner, behind, answer, closes, nothing⟩ := inner.whole (by decide) innerTokens
  exact ⟨behind, nothing.nothing, outcome_parentheses opens answer closes⟩

private theorem ReadArguments.none : ReadArguments [] [] := by
  intro chars rest all
  obtain ⟨behind, closes, nothing⟩ := all.firstBracket
  exact ⟨behind, nothing.nothing, outcome_arguments_none closes⟩

private theorem ReadArguments.some {tokens : List Token} {args : List Expr} (areListed : Listed tokens args)
    (reads : ReadListed tokens args) : ReadArguments tokens args := by
  intro chars rest all
  obtain ⟨token, more, rfl, -⟩ := areListed.starts
  obtain ⟨left, same, answer⟩ := reads _ _ all.skip
  refine ⟨left, same, (outcome_arguments_some ?_).trans answer⟩
  intro c isHead
  have ends := areListed.starts.ends all c isHead
  simp only [Bool.or_eq_false_iff] at ends
  exact ends.1

private theorem ReadListed.last {tokens : List Token} {arg : Expr} (isArg : ReadAt 1 tokens arg) :
    ReadListed tokens [arg] := by
  intro chars rest all
  obtain ⟨afterArg, behind, answer, closes, nothing⟩ := isArg.whole (by decide) all
  exact ⟨behind, nothing.nothing, outcome_argumentsFrom_last answer closes⟩

private theorem ReadListed.more {tokens others : List Token} {arg : Expr} {args : List Expr}
    (isArg : ReadAt 1 tokens arg) (areOthers : ReadListed others args) :
    ReadListed (tokens ++ .mark "," :: others) (arg :: args) := by
  intro chars rest all
  rw [List.append_assoc] at all
  obtain ⟨afterArg, behind, answer, separates, otherTokens⟩ := isArg.whole (by decide) all
  obtain ⟨left, same, otherAnswer⟩ := areOthers _ _ otherTokens
  exact ⟨left, same, outcome_argumentsFrom_more answer separates otherAnswer⟩

mutual

private theorem Binary.readAt {level : Nat} {tokens : List Token} {e : Expr} :
    Binary level tokens e → ReadAt level tokens e
  | .prefixed rest => .prefixed rest.reads
  | .tighter _ rest => .tighter rest.readAt
  | .apply ofLevel isLeft isRight => .apply ofLevel isLeft.readAt isRight.readAt

private theorem Prefixed.reads {tokens : List Token} {e : Expr} : Prefixed tokens e → ReadPrefixed tokens e
  | .operand isOperand => .operand isOperand isOperand.reads
  | .apply isArg => .apply isArg.reads

private theorem Operand.reads {tokens : List Token} {e : Expr} : Operand tokens e → ReadOperand tokens e
  | .boolean value => .boolean value
  | .number whole fraction => .number whole fraction
  | .identifier first parts => .identifier first parts
  | .call _ _ areArgs => .call areArgs.reads
  | .lookback _ _ isIndex isOffset => .lookback isIndex.readAt isOffset
  | .parentheses inner => .parentheses inner.readAt

private theorem Arguments.reads {tokens : List Token} {args : List Expr} :
    Arguments tokens args → ReadArguments tokens args
  | .none => .none
  | .some areListed => .some areListed areListed.reads

private theorem Listed.reads {tokens : List Token} {args : List Expr} : Listed tokens args → ReadListed tokens args
  | .last isArg => .last isArg.readAt
  | .more isArg areOthers => .more isArg.readAt areOthers.reads

end

/-! ### Whole texts -/

/-- What is read from a text is denoted by it. -/
theorem denotes_of_parse {text : String} {e : Expr} (read : parse text = .ok e) : Denotes text e := by
  have readChars := parseChars_of_parse read
  rw [parseChars] at readChars
  dsimp only [behindBlanks] at readChars
  split at readChars
  · contradiction
  · obtain ⟨⟨whole, rest, shorter⟩, readWhole, readChars⟩ := bind_eq_ok readChars
    dsimp only at readChars
    split at readChars
    · contradiction
    · next nothingMore =>
      cases readChars
      obtain ⟨tokens, areTokens, derived, -⟩ := operation_derives 1 _ (by omega) readWhole
      have nothingLeft : Tokens rest [] [] := by
        have skipped := Tokens.skipped rest
        rwa [Classical.not_not.mp nothingMore] at skipped
      have all := (Tokens.skipped text.toList).append (areTokens.append nothingLeft)
      exact ⟨tokens, by simpa using all, derived⟩

/-- What a text denotes is read from it. -/
theorem parse_of_denotes {text : String} {e : Expr} (denotes : Denotes text e) : parse text = .ok e := by
  obtain ⟨tokens, all, derived⟩ := denotes
  obtain ⟨token, more, rfl, -⟩ := derived.starts
  obtain ⟨first, behind, split, spelled, -⟩ := all.first
  obtain ⟨c, tail, rfl, -⟩ := spelled.starts
  have nonempty : Text.skipBlanks text.toList ≠ [] := by simp [split]
  obtain ⟨left, ended, isRead⟩ := derived.readAt.ends all.skip (.nil 1)
  obtain ⟨shorter, answer⟩ := exists_of_outcome isRead
  have nothingMore : Text.skipBlanks left = [] := ended
  apply parse_of_parseChars
  rw [parseChars]
  dsimp only [behindBlanks]
  rw [if_neg nonempty, answer, ok_bind]
  dsimp only
  rw [if_neg (by simp [nothingMore])]
  rfl

/-- A text is read as an expression exactly if it falls into tokens that make up that expression. -/
theorem parse_accepts_grammar (text : String) (e : Expr) :
    parse text = .ok e ↔ ∃ tokens, Tokens text.toList tokens [] ∧ Binary 1 tokens e :=
  ⟨denotes_of_parse, parse_of_denotes⟩

end TradingStrategy.Expr

import TradingStrategy.Proofs.Expr.Spelling

/-!
The cursor of the reader of expressions.

Owns:
- cuts: a text is cut exactly between its characters, and a position counts the bytes in front of the cut;
- `Follows`: a reader that moves the cursor answers as the reader of the characters that are left, with the cursor in
  front of what that one leaves, and never cuts a character;
- that every reader follows, and with them `parse`.

A reader that starts between characters is given what is left there, so that one relation carries the boundaries, the
values and the faults through the mutual recursion. Its rules follow the steps of the readers.
-/

namespace TradingStrategy.Expr

open Text (Ends ends_dropWhile isDigit_iff)

/-! ### Cuts -/

theorem cut?_append (front rest : List Char) : cut? (front ++ rest) (byteLength front) = some (front, rest) := by
  induction front with
  | nil => exact cut?.eq_1 rest
  | cons c tail inductionHypothesis =>
    have wide := c.utf8Size_pos
    obtain ⟨more, bytes⟩ : ∃ more, byteLength (c :: tail) = more + 1 := Nat.exists_eq_add_one.mpr (by
      rw [byteLength_cons]
      omega)
    have behind : more + 1 - c.utf8Size = byteLength tail := by
      rw [← bytes, byteLength_cons]
      omega
    have fits : c.utf8Size ≤ more + 1 := by
      rw [← bytes, byteLength_cons]
      omega
    rw [bytes, List.cons_append, cut?, if_pos fits, behind, inductionHypothesis]
    rfl

/-- A position is between two characters exactly if it counts the bytes of those in front. -/
theorem from?_eq_some {input rest : List Char} {position : Nat} :
    from? input position = some rest ↔ ∃ front, input = front ++ rest ∧ byteLength front = position := by
  constructor
  · intro here
    obtain ⟨⟨front, behind⟩, cut, rfl⟩ := Option.map_eq_some_iff.mp here
    exact ⟨front, append_of_cut? cut⟩
  · rintro ⟨front, rfl, rfl⟩
    rw [from?, cut?_append]
    rfl

theorem from?_zero (input : List Char) : from? input 0 = some input :=
  from?_eq_some.mpr ⟨[], rfl, rfl⟩

/-- The cursor goes over characters by as many bytes as they have. -/
theorem from?_append {input front rest : List Char} {position : Nat} (here : from? input position = some (front ++ rest)) :
    from? input (position + byteLength front) = some rest := by
  obtain ⟨before, rfl, rfl⟩ := from?_eq_some.mp here
  exact from?_eq_some.mpr ⟨before ++ front, (List.append_assoc ..).symm, byteLength_append before front⟩

theorem between?_append {input front rest : List Char} {position : Nat}
    (here : from? input position = some (front ++ rest)) :
    between? input position (position + byteLength front) = some front := by
  rw [between?, if_pos (Nat.le_add_right ..), here, Nat.add_sub_cancel_left]
  show (cut? (front ++ rest) (byteLength front)).map Prod.fst = some front
  rw [cut?_append]
  rfl

/-- The cursor is at the end exactly if nothing is left. -/
theorem byteLength_le_iff {input rest : List Char} {position : Nat} (here : from? input position = some rest) :
    byteLength input ≤ position ↔ rest = [] := by
  have whole := from?_length here
  cases rest with
  | nil =>
    rw [← whole]
    simp [byteLength]
  | cons c tail =>
    have onward := advances here rfl
    simp
    omega

theorem from?_tail {input chars : List Char} {c : Char} {position : Nat} (here : from? input position = some chars)
    (first : chars.head? = some c) : from? input (position + c.utf8Size) = some chars.tail := by
  obtain ⟨rest, rfl⟩ := List.head?_eq_some_iff.mp first
  exact @from?_append _ [c] rest _ here

/-! ### Following -/

section Following

variable {input : List Char} {α β γ δ : Type}

/-- What a reader that moves the cursor answers, beside what the reader of the characters that are left answers. -/
inductive Follows (input : List Char) (related : α → β → Prop) : Except ParseError α → Except Stop β → Prop
  | ok {read : α} {other : β} (same : related read other) : Follows input related (.ok read) (.ok other)
  | error {position : Nat} {fault : Fault} {rest : List Char} (here : from? input position = some rest)
      (uncut : fault ≠ .splitCharacter) : Follows input related (.error (errorAt input position fault)) (.error ⟨fault, rest⟩)

/-- The same value, and the cursor in front of what is left. -/
inductive Leaves (input : List Char) {position : Nat} {chars : List Char} : α × Onward position → α × Rest chars → Prop
  | intro {value : α} {next : Nat} {rest : List Char} {later : position ≤ next} {shorter : rest.length ≤ chars.length}
      (there : from? input next = some rest) : Leaves input (value, ⟨next, later⟩) (value, ⟨rest, shorter⟩)

/-- The cursor in front of what is left. -/
inductive Reaches (input : List Char) {position : Nat} {chars : List Char} : Onward position → Rest chars → Prop
  | intro {next : Nat} {rest : List Char} {later : position ≤ next} {shorter : rest.length ≤ chars.length}
      (there : from? input next = some rest) : Reaches input ⟨next, later⟩ ⟨rest, shorter⟩

variable {related : γ → δ → Prop}

theorem ok_bind {ε : Type} (value : α) (next : α → Except ε γ) : ((.ok value : Except ε α) >>= next) = next value :=
  rfl

theorem Follows.bind {first : α → β → Prop} {read : Except ParseError α} {other : Except Stop β}
    {next : α → Except ParseError γ} {nextOther : β → Except Stop δ} (follows : Follows input first read other)
    (goesOn : ∀ value valueOther, first value valueOther → Follows input related (next value) (nextOther valueOther)) :
    Follows input related (read >>= next) (other >>= nextOther) := by
  cases follows with
  | ok same => exact goesOn _ _ same
  | error here uncut => exact .error here uncut

/-- Behind a reader that follows, readers that start where it ends. -/
theorem Follows.leaving {position : Nat} {chars : List Char} {read : Except ParseError (α × Onward position)}
    {other : Except Stop (α × Rest chars)} {next : α × Onward position → Except ParseError γ}
    {nextOther : α × Rest chars → Except Stop δ} (follows : Follows input (Leaves input) read other)
    (goesOn : ∀ value stop later rest shorter, from? input stop = some rest →
      Follows input related (next (value, ⟨stop, later⟩)) (nextOther (value, ⟨rest, shorter⟩))) :
    Follows input related (read >>= next) (other >>= nextOther) := by
  apply follows.bind
  rintro _ _ ⟨there⟩
  exact goesOn _ _ _ _ _ there

theorem Follows.reaching {position : Nat} {chars : List Char} {read : Except ParseError (Onward position)}
    {other : Except Stop (Rest chars)} {next : Onward position → Except ParseError γ}
    {nextOther : Rest chars → Except Stop δ} (follows : Follows input (Reaches input) read other)
    (goesOn : ∀ stop later rest shorter, from? input stop = some rest →
      Follows input related (next ⟨stop, later⟩) (nextOther ⟨rest, shorter⟩)) :
    Follows input related (read >>= next) (other >>= nextOther) := by
  apply follows.bind
  rintro _ _ ⟨there⟩
  exact goesOn _ _ _ _ there

theorem Follows.dite {condition : Prop} [Decidable condition] {yes : condition → Except ParseError γ}
    {no : ¬condition → Except ParseError γ} {yesOther : condition → Except Stop δ}
    {noOther : ¬condition → Except Stop δ} (ifYes : ∀ holds, Follows input related (yes holds) (yesOther holds))
    (ifNo : ∀ fails, Follows input related (no fails) (noOther fails)) :
    Follows input related (if holds : condition then yes holds else no holds)
      (if holds : condition then yesOther holds else noOther holds) := by
  by_cases holds : condition
  · rw [dif_pos holds, dif_pos holds]
    exact ifYes holds
  · rw [dif_neg holds, dif_neg holds]
    exact ifNo holds

theorem Follows.ite {condition : Prop} [Decidable condition] {yes no : Except ParseError γ}
    {yesOther noOther : Except Stop δ} (ifYes : condition → Follows input related yes yesOther)
    (ifNo : ¬condition → Follows input related no noOther) :
    Follows input related (if condition then yes else no) (if condition then yesOther else noOther) :=
  .dite ifYes ifNo

/-! ### Lexical readers -/

theorem remaining_eq {position : Nat} {chars : List Char} (here : from? input position = some chars) :
    remaining input position = .ok ⟨chars, here⟩ := by
  unfold remaining
  split
  · next none => simp [here] at none
  · next rest isRest =>
    congr 1
    apply Subtype.ext
    exact Option.some.inj (rest.property.symm.trans here)

theorem follows_remaining {position : Nat} {chars : List Char}
    {next : { rest : List Char // from? input position = some rest } → Except ParseError γ} {other : Except Stop δ}
    (here : from? input position = some chars) (goesOn : Follows input related (next ⟨chars, here⟩) other) :
    Follows input related (remaining input position >>= next) other := by
  rw [remaining_eq here]
  exact goesOn

theorem passed_eq {position : Nat} {front rest : List Char} (here : from? input position = some (front ++ rest)) :
    passed input position (position + byteLength front) = .ok front := by
  unfold passed
  rw [between?_append here]

theorem skipWhile_eq (inClass : Char → Bool) {chars : List Char} {position : Nat}
    (here : from? input position = some chars) :
    skipWhile input inClass position =
      .ok ⟨position + byteLength (chars.takeWhile inClass), Nat.le_add_right ..⟩ := by
  induction chars generalizing position with
  | nil =>
    rw [skipWhile, remaining_eq here]
    rfl
  | cons c rest inductionHypothesis =>
    rw [skipWhile, remaining_eq here]
    by_cases inRun : inClass c = true
    · have there := inductionHypothesis (from?_tail here rfl)
      simp only [bind, Except.bind, if_pos inRun, there, List.takeWhile_cons_of_pos inRun, byteLength_cons, pure,
        Except.pure, Nat.add_assoc]
    · simp only [bind, Except.bind, if_neg inRun, List.takeWhile_cons_of_neg inRun]
      rfl

theorem from?_dropWhile (inClass : Char → Bool) {chars : List Char} {position : Nat}
    (here : from? input position = some chars) :
    from? input (position + byteLength (chars.takeWhile inClass)) = some (chars.dropWhile inClass) := by
  rw [← @List.takeWhile_append_dropWhile _ inClass chars] at here
  exact from?_append here

theorem follows_skipBlanksAt {position : Nat} {chars : List Char} {next : Onward position → Except ParseError γ}
    {other : Except Stop δ} (here : from? input position = some chars)
    (goesOn : ∀ start skipped, from? input start = some (behindBlanks chars).val →
      Follows input related (next ⟨start, skipped⟩) other) :
    Follows input related (skipBlanksAt input position >>= next) other := by
  rw [skipBlanksAt, skipWhile_eq Text.isBlank here]
  exact goesOn _ _ (from?_dropWhile Text.isBlank here)

theorem expectAt_follows (wanted : Char) {position : Nat} {chars : List Char} (here : from? input position = some chars) :
    Follows input (Reaches input) (expectAt input wanted position) (expect wanted chars) := by
  rw [expectAt, expect]
  refine follows_skipBlanksAt here ?_
  intro start skipped atStart
  generalize behindBlanks chars = left at atStart ⊢
  refine follows_remaining atStart ?_
  obtain ⟨_ | ⟨c, rest⟩, shorter⟩ := left
  · exact .error atStart nofun
  · refine .ite (fun _ => ?_) fun _ => .error atStart nofun
    exact .ok ⟨from?_tail atStart rfl⟩

theorem nameAt_eq {position : Nat} {chars name rest : List Char} (here : from? input position = some chars)
    (isName : name? chars = some (name, rest)) :
    ∃ next later, nameAt input position = .ok (name, ⟨next, later⟩) ∧ from? input next = some rest := by
  cases chars with
  | nil => contradiction
  | cons c tail =>
    rw [name?] at isName
    split at isName
    · next start =>
      obtain ⟨rfl, rfl⟩ := Prod.mk.inj (Option.some.inj isName)
      have inName : isNameChar c = true := by simp [isNameChar_eq, start]
      have skipped := skipWhile_eq isNameChar here
      have there := from?_dropWhile isNameChar here
      have split := here
      rw [← @List.takeWhile_append_dropWhile _ isNameChar (c :: tail)] at split
      have isPassed := passed_eq split
      rw [List.takeWhile_cons_of_pos inName] at skipped there isPassed
      rw [List.dropWhile_cons_of_pos inName] at there
      refine ⟨_, Nat.le_add_right .., ?_, there⟩
      simp only [nameAt, remaining_eq here, bind, Except.bind, if_pos start, skipped, isPassed]
      rfl
    · contradiction

theorem nameAt_eq_error {position : Nat} {chars : List Char} (here : from? input position = some chars)
    (noName : name? chars = none) : nameAt input position = .error (errorAt input position .name) := by
  rw [nameAt, remaining_eq here]
  cases chars with
  | nil => rfl
  | cons c tail =>
    rw [name?] at noName
    split at noName
    · contradiction
    · next notStart => simp only [bind, Except.bind, if_neg notStart]; rfl

theorem membersAt_follows {position : Nat} {name chars : List Char} (here : from? input position = some chars) :
    Follows input (Leaves input) (membersAt input name position) (members name chars) := by
  induction name, chars using members.induct generalizing position with
  | case1 name chars point notFound =>
    have atMember := from?_tail here point
    rw [membersAt, members, dif_pos point]
    refine follows_remaining here ?_
    dsimp only
    rw [dif_pos point, nameAt_eq_error atMember notFound]
    split
    · refine .error atMember ?_
      intro same
      contradiction
    · next found => cases notFound.symm.trans found
  | case2 name chars point member behind found shorter inductionHypothesis =>
    obtain ⟨next, later, isName, atNext⟩ := nameAt_eq (from?_tail here point) found
    rw [membersAt, members, dif_pos point]
    refine follows_remaining here ?_
    dsimp only
    rw [dif_pos point, isName]
    split
    · next none => cases found.symm.trans none
    · next isMember =>
      cases found.symm.trans isMember
      refine (inductionHypothesis atNext).leaving ?_
      intro full last later' rest shorter' atLast
      exact .ok ⟨atLast⟩
  | case3 name chars noPoint =>
    rw [membersAt, members, dif_neg noPoint]
    refine follows_remaining here ?_
    dsimp only
    rw [dif_neg noPoint]
    exact .ok ⟨here⟩

/-! ### Numbers -/

theorem skipDigits_digit {pointed : Bool} {count total position next : Nat} {c : Char} {rest : List Char}
    {later : position + c.utf8Size ≤ next} (here : from? input position = some (c :: rest)) (isDigit : c.isDigit = true)
    (there : skipDigits input pointed (count + 1) (position + c.utf8Size) = .ok (total, ⟨next, later⟩)) :
    skipDigits input pointed count position = .ok (total, ⟨next, Nat.le_of_add_right_le later⟩) := by
  rw [skipDigits, remaining_eq here, ok_bind]
  dsimp only
  rw [if_pos isDigit, there]
  rfl

theorem skipDigits_eq (pointed : Bool) (count : Nat) {digits rest : List Char} {position : Nat}
    (areDigits : ∀ c ∈ digits, c.isDigit = true) (ends : Ends Char.isDigit rest)
    (noPoint : pointed = true ∨ Ends (· = '.') rest) (here : from? input position = some (digits ++ rest)) :
    skipDigits input pointed count position =
      .ok (count + digits.length, ⟨position + byteLength digits, Nat.le_add_right ..⟩) := by
  induction digits generalizing position count with
  | nil =>
    rw [skipDigits, remaining_eq here, ok_bind]
    cases rest with
    | nil => rfl
    | cons c tail =>
      have notDigit : ¬c.isDigit = true := by simpa using ends
      have notPoint : ¬(c = '.' ∧ pointed = false) := by
        rintro ⟨rfl, notYet⟩
        simp [notYet] at noPoint
      dsimp only [List.nil_append]
      rw [if_neg notDigit, if_neg notPoint]
      rfl
  | cons c digits inductionHypothesis =>
    have there := inductionHypothesis (count + 1) (fun d among => areDigits d (List.mem_cons_of_mem _ among))
      (from?_tail here rfl)
    rw [skipDigits_digit here (areDigits c List.mem_cons_self) there]
    simp only [byteLength_cons, List.length_cons, Nat.add_assoc, Nat.add_comm 1]

theorem skipDigits_pointed (count : Nat) {whole fraction rest : List Char} {position : Nat}
    (areWhole : ∀ c ∈ whole, c.isDigit = true) (areFraction : ∀ c ∈ fraction, c.isDigit = true)
    (ends : Ends Char.isDigit rest) (here : from? input position = some (whole ++ '.' :: (fraction ++ rest))) :
    skipDigits input false count position =
      .ok (count + whole.length + fraction.length,
        ⟨position + byteLength (whole ++ '.' :: fraction), Nat.le_add_right ..⟩) := by
  induction whole generalizing position count with
  | nil =>
    have there := skipDigits_eq true count areFraction ends (.inl rfl) (from?_tail here rfl)
    rw [skipDigits, remaining_eq here, ok_bind]
    dsimp only [List.nil_append]
    rw [if_neg (by decide), if_pos ⟨rfl, rfl⟩, there, ok_bind]
    simp only [byteLength_cons, List.length_nil, Nat.add_assoc, Nat.zero_add]
    rfl
  | cons c whole inductionHypothesis =>
    have there := inductionHypothesis (count + 1) (fun d among => areWhole d (List.mem_cons_of_mem _ among))
      (from?_tail here rfl)
    rw [skipDigits_digit here (areWhole c List.mem_cons_self) there]
    simp only [List.cons_append, byteLength_cons, List.length_cons, Nat.add_assoc, Nat.add_comm 1]

/-- What the number reader of the text takes for a number is one on its own. -/
theorem magnitude?_of_number? {text : List Char} {value : Float} (read : number? text = some (value, [])) :
    Number.magnitude? text = some value := by
  have parted : ∀ (whole : List Char) (parts : List Char × List Char),
      (if whole = [] ∧ parts.1 = [] then none else some (Number.ofParts whole parts.1 0, parts.2)) = some (value, []) →
      (if whole = [] ∧ parts.1 = [] then none
        else (Number.exponent? parts.2).map fun exponent => Number.ofParts whole parts.1 exponent) = some value := by
    intro whole parts taken
    split at taken
    · contradiction
    · next someDigit =>
      obtain ⟨isValue, ended⟩ := Prod.mk.inj (Option.some.inj taken)
      rw [if_neg someDigit, ended]
      exact congrArg some isValue
  unfold number? at read
  unfold Number.magnitude?
  exact parted _ _ read

/-- Digits and points belong to no named number. -/
theorem named?_eq_none {c : Char} {rest : List Char} (inNumber : c.isDigit = true ∨ c = '.') :
    Number.named? (c :: rest) = none := by
  have notUpper : ¬(c.val ≥ 'A'.val ∧ c.val ≤ 'Z'.val) := by
    rintro ⟨upper, -⟩
    have code : 65 ≤ c.toNat := UInt32.le_iff_toNat_le.mp upper
    rcases inNumber with isDigit | rfl
    · have range := (isDigit_iff c).mp isDigit
      omega
    · exact absurd code (by decide)
  have same : c.toLower = c := dif_neg notUpper
  have notLetter : c ≠ 'n' ∧ c ≠ 'i' := by
    constructor <;>
    · rintro rfl
      revert inNumber
      decide
  simp only [Number.named?, List.map_cons, same]
  rw [if_neg, if_neg]
  · rintro (isName | isName) <;> exact notLetter.2 (List.cons.inj isName).1
  · intro isName
    exact notLetter.1 (List.cons.inj isName).1

theorem parse_of_number? {c : Char} {tail : List Char} {value : Float} (inNumber : c.isDigit = true ∨ c = '.')
    (read : number? (c :: tail) = some (value, [])) : Number.parse (String.ofList (c :: tail)) = .ok value := by
  have noSign : Number.splitSign (c :: tail) = (false, c :: tail) := by
    have notMinus : c ≠ '-' := by
      rintro rfl
      simp at inNumber
    have notPlus : c ≠ '+' := by
      rintro rfl
      simp at inNumber
    unfold Number.splitSign
    split
    · next isMinus => exact absurd (List.cons.inj isMinus).1 notMinus
    · next isPlus => exact absurd (List.cons.inj isPlus).1 notPlus
    · rfl
  unfold Number.parse
  rw [String.toList_ofList]
  simp only [noSign, named?_eq_none inNumber, magnitude?_of_number? read]
  rfl

theorem Longest.alone {text behind : List Char} (longest : Longest text behind) : Longest text [] := by
  intro token longer spelled inFront
  rw [List.append_nil] at inFront
  exact longest token longer spelled (inFront.trans (List.prefix_append text behind))

/-- The digits that the cursor goes over are those of the number in front. -/
theorem skipDigits_number {position : Nat} {whole fraction text rest : List Char}
    (spelled : Spells (.number whole fraction) text) (longest : Longest text rest)
    (here : from? input position = some (text ++ rest)) :
    ∃ count, count ≠ 0 ∧
      skipDigits input false 0 position = .ok (count, ⟨position + byteLength text, Nat.le_add_right ..⟩) := by
  cases spelled with
  | whole nonempty areDigits =>
    have skipped := skipDigits_eq false 0 areDigits (longest.noMoreDigits areDigits)
      (.inr (longest.noPoint nonempty areDigits)) here
    exact ⟨_, by simpa using nonempty, skipped⟩
  | pointed nonempty areDigits =>
    have areWhole : ∀ c ∈ whole, c.isDigit = true := fun c among => areDigits c (List.mem_append_left _ among)
    have areFraction : ∀ c ∈ fraction, c.isDigit = true := fun c among => areDigits c (List.mem_append_right _ among)
    rw [List.append_assoc] at here
    have skipped := skipDigits_pointed 0 areWhole areFraction (longest.noMoreFraction areDigits) here
    refine ⟨_, ?_, skipped⟩
    rcases nonempty with nonempty | nonempty
    · have := List.length_pos_iff.mpr nonempty
      omega
    · have := List.length_pos_iff.mpr nonempty
      omega

theorem numberAt_eq {position : Nat} {chars rest : List Char} {value : Float} (here : from? input position = some chars)
    (isNumber : number? chars = some (value, rest)) :
    ∃ next later, numberAt input position = .ok (value, ⟨next, later⟩) ∧ from? input next = some rest := by
  obtain ⟨whole, fraction, text, rfl, spelled, longest, rfl⟩ := number?_eq_some.mp isNumber
  obtain ⟨count, someDigit, skipped⟩ := skipDigits_number spelled longest here
  obtain ⟨c, tail, rfl, inNumber, -⟩ := spelled.starts
  have alone : number? (c :: tail) = some (Number.ofParts whole fraction 0, []) :=
    number?_eq_some.mpr ⟨whole, fraction, c :: tail, by simp, spelled, longest.alone, rfl⟩
  refine ⟨_, Nat.le_add_right .., ?_, from?_append here⟩
  rw [numberAt, skipped, ok_bind]
  dsimp only
  rw [if_neg someDigit, passed_eq here, ok_bind, parse_of_number? inNumber alone]
  rfl

theorem numberAt_eq_error {position : Nat} {chars : List Char} (here : from? input position = some chars)
    (noNumber : number? chars = none) : numberAt input position = .error (errorAt input position .number) := by
  have noDigits : ∃ next, skipDigits input false 0 position = .ok (0, next) := by
    have ofEmpty : ∀ {run : List Char}, run.takeWhile Char.isDigit = [] → run.dropWhile Char.isDigit = run := by
      intro run empty
      have whole := @List.takeWhile_append_dropWhile _ Char.isDigit run
      rwa [empty] at whole
    have ends := ends_dropWhile Char.isDigit
    unfold number? at noNumber
    simp only at noNumber
    split at noNumber
    · next tail afterWhole =>
      split at noNumber
      · next none =>
        obtain rfl : chars = '.' :: tail := (ofEmpty none.1).symm.trans afterWhole
        exact ⟨_, @skipDigits_pointed _ 0 [] [] _ _ (by simp) (by simp) (ofEmpty none.2 ▸ ends tail) here⟩
      · contradiction
    · next noPoint =>
      split at noNumber
      · next none =>
        have noMore := ofEmpty none.1
        rw [noMore] at noPoint
        have notPoint : Ends (· = '.') chars := by
          intro c isHead
          apply decide_eq_false
          rintro rfl
          obtain ⟨tail, isPoint⟩ := List.head?_eq_some_iff.mp isHead
          exact noPoint tail isPoint
        exact ⟨_, @skipDigits_eq _ false 0 [] _ _ (by simp) (noMore ▸ ends chars) (.inr notPoint) here⟩
      · contradiction
  obtain ⟨next, skipped⟩ := noDigits
  rw [numberAt, skipped, ok_bind]
  rfl

theorem name?_eq_none_iff {chars : List Char} : name? chars = none ↔ chars.head?.any isNameStart = false := by
  cases chars <;> simp [name?]

/-- Operators are ASCII, so that the cursor goes over as many characters as bytes. -/
theorem from?_operator {position width : Nat} {chars : List Char} {op : BinaryOp}
    (here : from? input position = some chars) (found : operator? chars = .ok (some (op, width))) :
    from? input (position + width) = some (chars.drop width) := by
  revert found here
  fun_cases operator? chars with
  | case1 | case2 | case3 | case4 | case5 | case6 =>
    rintro here ⟨⟩
    exact from?_tail (from?_tail here rfl) rfl
  | case14 | case15 | case16 =>
    intro _ failed
    contradiction
  | case17 =>
    intro _ none
    cases Except.ok.inj none
  | _ =>
    rintro here ⟨⟩
    exact from?_tail here rfl

theorem from?_sign {position width : Nat} {chars : List Char} {op : UnaryOp} (here : from? input position = some chars)
    (found : sign? chars = some (op, width)) : from? input (position + width) = some (chars.drop width) := by
  revert found here
  fun_cases sign? chars with
  | case3 | case5 =>
    intro _ none
    contradiction
  | _ =>
    rintro here ⟨⟩
    exact from?_tail here rfl

/-- A doubled sign that stands alone is the only fault of an operator. -/
theorem operator?_uncut {chars : List Char} {fault : Fault} (failed : operator? chars = .error fault) :
    fault ≠ .splitCharacter := by
  unfold operator? at failed
  split at failed <;> simp only [Except.error.injEq, reduceCtorEq] at failed
  all_goals
    rw [← failed]
    nofun

theorem foldOffset_uncut {index : Expr} {fault : Fault} (failed : foldOffset index = .error fault) :
    fault ≠ .splitCharacter := by
  unfold foldOffset at failed
  split at failed
  · contradiction
  · split at failed
    · contradiction
    · cases failed
      nofun
  · cases failed
    nofun

/-! ### Expressions -/

mutual

theorem operationAt_follows (least : Nat) {position : Nat} {chars : List Char} (here : from? input position = some chars) :
    Follows input (Leaves input) (operationAt input least position) (operation least chars) := by
  rw [operationAt, operation]
  refine (signedAt_follows here).leaving ?_
  intro left next later behind shorter atNext
  refine (climbAt_follows least left atNext).leaving ?_
  intro whole last later' rest shorter' atLast
  exact .ok ⟨atLast⟩
termination_by 8 * chars.length + 3

theorem climbAt_follows (least : Nat) (left : Expr) {position : Nat} {chars : List Char}
    (here : from? input position = some chars) :
    Follows input (Leaves input) (climbAt input least left position) (climb least left chars) := by
  rw [climbAt, climb]
  refine follows_skipBlanksAt here ?_
  intro start skipped atStart
  generalize behindBlanks chars = left' at atStart ⊢
  refine follows_remaining atStart ?_
  obtain ⟨rest, shorter⟩ := left'
  dsimp only
  split
  · next fault found =>
    rw [takeOperator_error found]
    exact .error atStart (operator?_uncut found)
  · next found =>
    rw [takeOperator_none found]
    exact .ok ⟨atStart⟩
  · next op width found =>
    rw [takeOperator_some found]
    have dropped := operator?_drop_lt found
    refine .ite (fun _ => .ok ⟨atStart⟩) fun _ => ?_
    refine (operationAt_follows (op.precedence + 1) (from?_operator atStart found)).leaving ?_
    intro right next later behind shorter' atNext
    refine (climbAt_follows least (.binary op left right) atNext).leaving ?_
    intro whole last later' rest shorter'' atLast
    exact .ok ⟨atLast⟩
termination_by 8 * chars.length + 2
decreasing_by all_goals simp only [List.length_drop] at *; omega

theorem signedAt_follows {position : Nat} {chars : List Char} (here : from? input position = some chars) :
    Follows input (Leaves input) (signedAt input position) (signed chars) := by
  rw [signedAt, signed]
  refine follows_skipBlanksAt here ?_
  intro start skipped atStart
  generalize behindBlanks chars = left' at atStart ⊢
  refine follows_remaining atStart ?_
  obtain ⟨rest, shorter⟩ := left'
  dsimp only
  split
  · next op width found =>
    rw [takeSign_some found]
    have dropped := sign?_drop_lt found
    refine (signedAt_follows (from?_sign atStart found)).leaving ?_
    intro arg next later behind shorter' atNext
    exact .ok ⟨atNext⟩
  · next found =>
    rw [takeSign_none found]
    refine (operandAt_follows atStart).leaving ?_
    intro e next later behind shorter' atNext
    exact .ok ⟨atNext⟩
termination_by 8 * chars.length + 2
decreasing_by
  · simp only [List.length_drop] at *
    omega
  · omega

theorem operandAt_follows {position : Nat} {chars : List Char} (here : from? input position = some chars) :
    Follows input (Leaves input) (operandAt input position) (operand chars) := by
  rw [operandAt, operand]
  refine follows_skipBlanksAt here ?_
  intro start skipped atStart
  generalize behindBlanks chars = left at atStart ⊢
  refine follows_remaining atStart ?_
  obtain ⟨rest, shorter⟩ := left
  dsimp only at atStart ⊢
  by_cases noStart : rest.head?.any isNameStart = false
  · have noName := name?_eq_none_iff.mpr noStart
    rw [if_pos noStart]
    split
    · refine (primaryAt_follows atStart).leaving ?_
      intro e next later behind shorter' atNext
      exact .ok ⟨atNext⟩
    · next found => cases noName.symm.trans found
  · rw [if_neg noStart]
    split
    · next noName => exact absurd (name?_eq_none_iff.mp noName) noStart
    · next first afterFirst isName =>
      have firstShorter := name?_length_lt isName
      obtain ⟨next, later, isFirst, atFirst⟩ := nameAt_eq atStart isName
      rw [isFirst, ok_bind]
      refine .ite (fun _ => .ok ⟨atFirst⟩) fun _ => .ite (fun _ => .ok ⟨atFirst⟩) fun _ => ?_
      refine (membersAt_follows atFirst).leaving ?_
      intro full afterName nameLater restName nameShorter atName
      refine follows_skipBlanksAt atName ?_
      intro behind behindLater atBehind
      generalize behindBlanks restName = left at atBehind ⊢
      refine follows_remaining atBehind ?_
      obtain ⟨rest', shorter'⟩ := left
      dsimp only at atBehind ⊢
      refine .dite (fun opens => ?_) fun _ => .dite (fun opens => ?_) fun _ => .ok ⟨atBehind⟩
      · have innerShorter := tail_length_lt opens
        refine (argumentsAt_follows (from?_tail atBehind opens)).leaving ?_
        intro args last lastLater restLast lastShorter atLast
        exact .ok ⟨atLast⟩
      · have innerShorter := tail_length_lt opens
        have atIndex := from?_tail atBehind opens
        refine (operationAt_follows 1 atIndex).leaving ?_
        intro index afterIndex indexLater restIndex indexShorter atAfter
        refine (expectAt_follows ']' atAfter).reaching ?_
        intro closed closedLater restClosed closedShorter atClosed
        cases folded : foldOffset index with
        | error fault => exact .error atIndex (foldOffset_uncut folded)
        | ok offset =>
          refine follows_skipBlanksAt atClosed ?_
          intro last lastLater atLast
          generalize behindBlanks restClosed = left at atLast ⊢
          exact follows_remaining atLast (.ite (fun _ => .error atLast nofun) fun _ => .ok ⟨atLast⟩)
termination_by 8 * chars.length + 1

theorem primaryAt_follows {position : Nat} {chars : List Char} (here : from? input position = some chars) :
    Follows input (Leaves input) (primaryAt input position) (primary chars) := by
  rw [primaryAt, primary]
  refine follows_skipBlanksAt here ?_
  intro start skipped atStart
  generalize behindBlanks chars = left at atStart ⊢
  refine follows_remaining atStart ?_
  obtain ⟨_ | ⟨c, tail⟩, shorter⟩ := left
  · exact .error atStart nofun
  · have tailShorter := Nat.lt_of_succ_le shorter
    dsimp only at atStart ⊢
    refine .ite (fun _ => ?_) fun _ => .ite (fun isOpening => ?_) fun _ => .error atStart nofun
    · split
      · next noNumber =>
        rw [numberAt_eq_error atStart noNumber]
        exact .error atStart nofun
      · next isNumber =>
        obtain ⟨next, later, isRead, atNext⟩ := numberAt_eq atStart isNumber
        rw [isRead]
        exact .ok ⟨atNext⟩
    · refine (operationAt_follows 1 (from?_tail atStart rfl)).leaving ?_
      intro inner afterInner innerLater restInner innerShorter atInner
      refine (expectAt_follows ')' atInner).reaching ?_
      intro next later rest shorter' atNext
      exact .ok ⟨atNext⟩
termination_by 8 * chars.length

theorem argumentsAt_follows {position : Nat} {chars : List Char} (here : from? input position = some chars) :
    Follows input (Leaves input) (argumentsAt input position) (arguments chars) := by
  rw [argumentsAt, arguments]
  refine follows_skipBlanksAt here ?_
  intro start skipped atStart
  generalize behindBlanks chars = left at atStart ⊢
  refine follows_remaining atStart ?_
  obtain ⟨rest, shorter⟩ := left
  dsimp only at atStart ⊢
  refine .dite (fun closes => .ok ⟨from?_tail atStart closes⟩) fun _ => ?_
  refine (argumentsFromAt_follows atStart).leaving ?_
  intro args next later behind shorter' atNext
  exact .ok ⟨atNext⟩
termination_by 8 * chars.length + 5

theorem argumentsFromAt_follows {position : Nat} {chars : List Char} (here : from? input position = some chars) :
    Follows input (Leaves input) (argumentsFromAt input position) (argumentsFrom chars) := by
  rw [argumentsFromAt, argumentsFrom]
  refine (operationAt_follows 1 here).leaving ?_
  intro arg afterArg argLater restArg argShorter atArg
  dsimp only
  refine follows_skipBlanksAt atArg ?_
  intro start skipped atStart
  generalize behindBlanks restArg = left at atStart ⊢
  refine follows_remaining atStart ?_
  obtain ⟨_ | ⟨mark, tail⟩, shorter⟩ := left
  · exact .error atStart nofun
  · have tailShorter := Nat.lt_of_succ_le shorter
    have atTail := from?_tail atStart rfl
    dsimp only at atStart atTail ⊢
    refine .ite (fun _ => ?_) fun _ => .ite (fun _ => .ok ⟨atTail⟩) fun _ => .error atStart nofun
    refine (argumentsFromAt_follows atTail).leaving ?_
    intro others next later rest shorter' atNext
    exact .ok ⟨atNext⟩
termination_by 8 * chars.length + 4

end

end Following

/-! ### Whole texts -/

/-- A text is read as its characters are; its errors are found in front of what is left there, and none of them is a cut
inside a character. -/
theorem parse_follows (text : String) : Follows text.toList Eq (parse text) (parseChars text.toList) := by
  rw [parse, parseChars]
  dsimp only
  refine follows_skipBlanksAt (from?_zero text.toList) ?_
  intro start skipped atStart
  generalize behindBlanks text.toList = left at atStart ⊢
  dsimp only
  by_cases ended : left.val = []
  · rw [if_pos ((byteLength_le_iff atStart).mpr ended), if_pos ended]
    exact .error atStart nofun
  · rw [if_neg (fun atEnd => ended ((byteLength_le_iff atStart).mp atEnd)), if_neg ended]
    refine (operationAt_follows 1 atStart).leaving ?_
    intro whole next later rest shorter atNext
    refine follows_skipBlanksAt atNext ?_
    intro last lastLater atLast
    dsimp only
    generalize behindBlanks rest = more at atLast ⊢
    by_cases nothing : more.val = []
    · rw [if_neg (by simpa using (byteLength_le_iff atLast).mpr nothing), if_neg (by simpa using nothing)]
      exact .ok rfl
    · rw [if_pos (by simpa using mt (byteLength_le_iff atLast).mp nothing), if_pos nothing]
      exact follows_remaining atLast (.error atLast nofun)

theorem parseChars_of_parse {text : String} {e : Expr} (read : parse text = .ok e) : parseChars text.toList = .ok e := by
  have follows := parse_follows text
  rw [read] at follows
  generalize parseChars text.toList = other at follows ⊢
  obtain ⟨⟨⟩⟩ := follows
  rfl

theorem parse_of_parseChars {text : String} {e : Expr} (read : parseChars text.toList = .ok e) : parse text = .ok e := by
  have follows := parse_follows text
  rw [read] at follows
  generalize parse text = other at follows ⊢
  obtain ⟨⟨⟩⟩ := follows
  rfl

/-- An error is found in front of what the readers of the characters leave where they stop. -/
theorem parse_eq_error {text : String} {error : ParseError} (failed : parse text = .error error) :
    ∃ rest, parseChars text.toList = .error ⟨error.fault, rest⟩ ∧ from? text.toList error.position = some rest ∧
      error.fragment = fragmentOf rest ∧ error.fault ≠ .splitCharacter := by
  have follows := parse_follows text
  rw [failed] at follows
  generalize parseChars text.toList = other at follows ⊢
  cases follows with
  | @error position fault rest here uncut =>
    refine ⟨rest, rfl, here, ?_, uncut⟩
    show fragmentAt text.toList position = fragmentOf rest
    rw [fragmentAt, here]

end TradingStrategy.Expr

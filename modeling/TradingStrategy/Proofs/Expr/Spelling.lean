import TradingStrategy.Proofs.Expr.Grammar
import TradingStrategy.Proofs.Expr.Readers
import TradingStrategy.Proofs.Text.Blanks

/-!
Spellings of tokens and the lexical readers.

Owns:
- the characters that a token starts with, and that none of them is blank;
- for names, numbers and the signs of operators: the reader takes a token exactly if it stands in front and is the
  longest one there.

The readers look at most one character past a token, so what they leave is described by its first character.
-/

namespace TradingStrategy.Expr

open Text (Ends ends_cons ends_dropWhile exists_blanks isDigit_iff notBlank_of_isDigit notBlank_of_visible run_append
  run_length_le run_unique skipBlanks_blanks skipBlanks_of_notBlank)

/-! ### Classes of characters -/

theorem isNameStart_iff (c : Char) :
    isNameStart c = true ↔ (65 ≤ c.toNat ∧ c.toNat ≤ 90) ∨ (97 ≤ c.toNat ∧ c.toNat ≤ 122) ∨ c.toNat = 95 := by
  have underscore : c = '_' ↔ c.toNat = 95 := by
    rw [← Char.toNat_inj]
    rfl
  have upper : c.isUpper = decide (c.val ≥ 'A'.val ∧ c.val ≤ 'Z'.val) := rfl
  have lower : c.isLower = (decide (c.val ≥ 'a'.val) && decide (c.val ≤ 'z'.val)) := rfl
  have letter : c.isAlpha = (c.isUpper || c.isLower) := rfl
  simp only [isNameStart, letter, upper, lower, Bool.or_eq_true, Bool.and_eq_true, decide_eq_true_eq, ge_iff_le,
    UInt32.le_iff_toNat_le, underscore]
  show ((65 ≤ c.toNat ∧ c.toNat ≤ 90) ∨ (97 ≤ c.toNat ∧ c.toNat ≤ 122)) ∨ c.toNat = 95 ↔ _
  omega

theorem isName_cons {c : Char} {rest : List Char} :
    IsName (c :: rest) ↔ isNameStart c = true ∧ ∀ d ∈ rest, isNameChar d = true := by
  simp only [IsName, isNameStart, isNameChar, Bool.or_eq_true, decide_eq_true_eq]

theorem isNameChar_eq (c : Char) : isNameChar c = (isNameStart c || c.isDigit) := by
  unfold isNameChar isNameStart Char.isAlphanum
  cases c.isAlpha <;> cases c.isDigit <;> simp

/-- What does not start with a character behind its blanks does not start with it, if the character is none of them. -/
theorem ends_of_skipBlanks {c : Char} {chars : List Char} (notBlank : Text.isBlank c = false)
    (ends : Ends (· = c) (Text.skipBlanks chars)) : Ends (· = c) chars := by
  intro d isHead
  apply decide_eq_false
  rintro rfl
  cases chars with
  | nil => simp at isHead
  | cons first rest =>
    obtain rfl : first = d := by simpa using isHead
    rw [skipBlanks_of_notBlank notBlank] at ends
    simp at ends

/-! ### How tokens start -/

/-- The characters that the spellings of a token start with. -/
def Token.StartsWith (c : Char) : Token → Prop
  | boolean _ => isNameStart c = true
  | name _ _ => isNameStart c = true
  | number _ _ => c.isDigit = true ∨ c = '.'
  | mark _ => isNameStart c = false ∧ c.isDigit = false ∧ c ≠ '.'

theorem IsName.chars {name : List Char} (isName : IsName name) : ∀ c ∈ name, isNameChar c = true := by
  cases name with
  | nil => exact isName.elim
  | cons c rest =>
    obtain ⟨start, others⟩ := isName_cons.mp isName
    intro d member
    rcases List.mem_cons.mp member with rfl | member
    · simp [isNameChar_eq, start]
    · exact others d member

theorem boolean_isName (value : Bool) : IsName (Value.boolean value).chars := by
  cases value <;> simp [Value.chars, IsName]

theorem marks_visible : ∀ sign ∈ marks, ∃ c rest, sign.toList = c :: rest ∧ 33 ≤ c.toNat ∧ c.toNat ≤ 126 ∧
    isNameStart c = false ∧ c.isDigit = false ∧ c ≠ '.' ∧ rest.length ≤ 1 := by
  intro sign isMark
  simp only [marks, BinaryOp.all, UnaryOp.all, List.map_cons, List.map_nil, BinaryOp.symbol, UnaryOp.symbol,
    List.cons_append, List.nil_append, List.mem_cons, List.not_mem_nil, or_false] at isMark
  rcases isMark with rfl | rfl | rfl | rfl | rfl | rfl | rfl | rfl | rfl | rfl | rfl | rfl | rfl | rfl | rfl | rfl |
    rfl | rfl | rfl | rfl | rfl <;> exact ⟨_, _, rfl, by decide⟩

/-- A spelling has a first character, which is one of its token and not blank. -/
theorem Spells.starts {token : Token} {text : List Char} (spelled : Spells token text) :
    ∃ c rest, text = c :: rest ∧ token.StartsWith c ∧ Text.isBlank c = false := by
  have ofName : ∀ {name : List Char}, IsName name → ∃ c rest, name = c :: rest ∧ isNameStart c = true ∧
      Text.isBlank c = false := by
    intro name isName
    cases name with
    | nil => exact isName.elim
    | cons c rest =>
      have start := (isName_cons.mp isName).1
      have range := (isNameStart_iff c).mp start
      exact ⟨c, rest, rfl, start, notBlank_of_visible (by omega) (by omega)⟩
  cases spelled with
  | boolean value =>
    obtain ⟨c, rest, same, start, notBlank⟩ := ofName (boolean_isName value)
    exact ⟨c, rest, same, start, notBlank⟩
  | @name first members isFirst =>
    obtain ⟨c, rest, rfl, start, notBlank⟩ := ofName isFirst
    exact ⟨c, _, rfl, start, notBlank⟩
  | whole nonempty areDigits =>
    obtain ⟨c, rest, rfl⟩ := List.exists_cons_of_ne_nil nonempty
    have isDigit := areDigits c (by simp)
    exact ⟨c, rest, rfl, .inl isDigit, notBlank_of_isDigit isDigit⟩
  | @pointed whole fraction _ areDigits =>
    cases whole with
    | nil => exact ⟨'.', fraction, rfl, .inr rfl, by decide⟩
    | cons c rest =>
      have isDigit := areDigits c (by simp)
      exact ⟨c, _, rfl, .inl isDigit, notBlank_of_isDigit isDigit⟩
  | mark isMark =>
    obtain ⟨c, rest, same, low, high, notStart, notDigit, notPoint, -⟩ := marks_visible _ isMark
    exact ⟨c, rest, same, ⟨notStart, notDigit, notPoint⟩, notBlank_of_visible low high⟩

/-- A first token stands behind the blanks. -/
theorem Tokens.first {chars rest : List Char} {token : Token} {tokens : List Token}
    (all : Tokens chars (token :: tokens) rest) :
    ∃ text behind, Text.skipBlanks chars = text ++ behind ∧ Spells token text ∧ Longest text behind ∧
      Tokens behind tokens rest := by
  cases all with
  | @next blanks text behind _ _ _ blank spelled longest others =>
    obtain ⟨c, more, rfl, -, notBlank⟩ := spelled.starts
    refine ⟨c :: more, behind, ?_, spelled, longest, others⟩
    rw [skipBlanks_blanks blank]
    exact skipBlanks_of_notBlank notBlank _

theorem Tokens.ofFirst {chars text behind rest : List Char} {token : Token} {tokens : List Token}
    (split : Text.skipBlanks chars = text ++ behind) (spelled : Spells token text) (longest : Longest text behind)
    (others : Tokens behind tokens rest) : Tokens chars (token :: tokens) rest := by
  obtain ⟨blanks, blank, same⟩ := exists_blanks chars
  rw [same, split]
  exact .next blank spelled longest others

theorem Tokens.skipped (chars : List Char) : Tokens chars [] (Text.skipBlanks chars) := by
  obtain ⟨blanks, blank, same⟩ := exists_blanks chars
  have done : Tokens (blanks ++ Text.skipBlanks chars) [] (Text.skipBlanks chars) := .done blank
  rwa [← same] at done

/-- A token that starts in front of these characters starts with the first of them. -/
theorem Spells.startsWith {token : Token} {text behind : List Char} {c : Char} (spelled : Spells token text)
    (inFront : text <+: c :: behind) : token.StartsWith c := by
  obtain ⟨d, rest, rfl, starts, -⟩ := spelled.starts
  have same : d = c := by simpa using (List.cons_prefix_cons.mp inFront).1
  exact same ▸ starts

/-- What follows a longest token would not make it longer. -/
theorem Longest.ends {inClass : Char → Bool} {text behind : List Char} (longest : Longest text behind)
    (longer : ∀ c, inClass c = true → ∃ token, Spells token (text ++ [c])) : Ends inClass behind := by
  intro c isHead
  apply Bool.eq_false_iff.mpr
  intro goesOn
  obtain ⟨token, spelled⟩ := longer c goesOn
  have inFront : text ++ [c] <+: text ++ behind := by
    cases behind with
    | nil => simp at isHead
    | cons d more =>
      obtain rfl : d = c := by simpa using isHead
      exact ⟨more, by simp⟩
  have shorter := longest token _ spelled inFront
  rw [List.length_append, List.length_singleton] at shorter
  omega

/-! ### Names -/

/-- Members with the points in front of them. -/
def dotted (members : List (List Char)) : List Char :=
  members.flatMap fun member => '.' :: member

theorem ends_dotted {behind : List Char} (ends : Ends isNameChar behind) (members : List (List Char)) :
    Ends isNameChar (dotted members ++ behind) := by
  cases members with
  | nil => exact ends
  | cons member rest => simp [dotted]; decide

/-- Names and members are no longer than those of which they are the beginning, if these are not followed by a further
character of a name or a further member. -/
theorem dotted_length_le {first other behind rest : List Char} {members others : List (List Char)}
    (isOther : IsName other) (areOthers : ∀ member ∈ others, IsName member)
    (isFirst : IsName first) (areMembers : ∀ member ∈ members, IsName member)
    (ends : Ends isNameChar behind) (noMember : ∀ member, IsName member → ¬ '.' :: member <+: behind)
    (same : other ++ (dotted others ++ rest) = first ++ (dotted members ++ behind)) :
    (other ++ dotted others).length ≤ (first ++ dotted members).length := by
  induction others generalizing other first members with
  | nil =>
    have shorter := run_length_le isOther.chars isFirst.chars (ends_dotted ends members) same
    simp only [dotted, List.flatMap_nil, List.append_nil, List.length_append]
    omega
  | cons member others inductionHypothesis =>
    have point : Ends isNameChar (dotted (member :: others) ++ rest) := by
      simp [dotted]
      decide
    obtain ⟨rfl, tail⟩ := run_unique isOther.chars point isFirst.chars (ends_dotted ends members) same
    cases members with
    | nil =>
      apply absurd _ (noMember member (areOthers member (by simp)))
      have starts : behind = '.' :: (member ++ (dotted others ++ rest)) := by
        simpa [dotted] using tail.symm
      rw [starts]
      exact List.prefix_append ('.' :: member) _
    | cons head members =>
      have inner : member ++ (dotted others ++ rest) = head ++ (dotted members ++ behind) := by
        simpa [dotted] using tail
      have shorter := inductionHypothesis (areOthers member (by simp))
        (fun name among => areOthers name (by simp [among])) (areMembers head (by simp))
        (fun name among => areMembers name (by simp [among])) inner
      simp only [dotted, List.flatMap_cons, List.length_append, List.length_cons] at shorter ⊢
      omega

theorem notDigit_of_isNameStart {c : Char} (start : isNameStart c = true) : ¬(c.isDigit = true ∨ c = '.') := by
  rintro (isDigit | rfl)
  · have letter := (isNameStart_iff c).mp start
    have digit := (isDigit_iff c).mp isDigit
    omega
  · exact absurd start (by decide)

/-- In front of the first character of a name stands a boolean or a name. -/
theorem word_of_isNameStart {token : Token} {c : Char} (starts : token.StartsWith c) (start : isNameStart c = true) :
    (∃ value, token = .boolean value) ∨ ∃ first members, token = .name first members := by
  cases token with
  | boolean value => exact .inl ⟨value, rfl⟩
  | name first members => exact .inr ⟨first, members, rfl⟩
  | number whole fraction => exact absurd starts (notDigit_of_isNameStart start)
  | mark sign => exact absurd (starts.1.symm.trans start) (by decide)

theorem name_longest {first behind : List Char} {members : List (List Char)} (isFirst : IsName first)
    (areMembers : ∀ member ∈ members, IsName member) (ends : Ends isNameChar behind)
    (noMember : ∀ member, IsName member → ¬ '.' :: member <+: behind) :
    Longest (joined '.' first members) behind := by
  intro token longer spelled inFront
  obtain ⟨c, tail, rfl⟩ := List.exists_cons_of_ne_nil (show first ≠ [] by rintro rfl; exact isFirst)
  have starts : token.StartsWith c := spelled.startsWith inFront
  obtain ⟨rest, same⟩ := inFront
  rw [joined, List.append_assoc] at same
  rcases word_of_isNameStart starts (isName_cons.mp isFirst).1 with ⟨value, rfl⟩ | ⟨other, others, rfl⟩
  · cases spelled with
    | boolean value =>
      have shorter := run_length_le (boolean_isName value).chars isFirst.chars (ends_dotted ends members) same
      rw [joined, List.length_append]
      omega
  · cases spelled with
    | name isOther _ areOthers =>
      rw [joined, List.append_assoc] at same
      exact dotted_length_le isOther areOthers isFirst areMembers ends noMember same

theorem boolean_longest (value : Bool) {behind : List Char} (ends : Ends isNameChar behind) :
    Longest (Value.boolean value).chars behind := by
  intro token longer spelled inFront
  have isWord := boolean_isName value
  obtain ⟨c, tail, split⟩ := List.exists_cons_of_ne_nil (show (Value.boolean value).chars ≠ [] by cases value <;> nofun)
  have start : isNameStart c = true := by
    rw [split] at isWord
    exact (isName_cons.mp isWord).1
  have starts : token.StartsWith c := spelled.startsWith (by rwa [split] at inFront)
  obtain ⟨rest, same⟩ := inFront
  rcases word_of_isNameStart starts start with ⟨other, rfl⟩ | ⟨first, members, rfl⟩
  · cases spelled with
    | boolean other => exact run_length_le (boolean_isName other).chars isWord.chars ends same
  · cases spelled with
    | name isFirst notBoolean areMembers =>
      rw [joined, List.append_assoc] at same
      -- A name with members is read to its first point, so its first part would be the boolean.
      cases members with
      | nil =>
        have shorter := run_length_le isFirst.chars isWord.chars ends same
        simpa [joined] using shorter
      | cons member members =>
        have point : Ends isNameChar (dotted (member :: members) ++ rest) := by
          simp [dotted]
          decide
        exact absurd (run_unique isFirst.chars point isWord.chars ends same).1 (notBoolean value)

/-- Every name is the beginning of a token. -/
theorem spells_of_isName {first : List Char} {members : List (List Char)} (isFirst : IsName first)
    (notBoolean : members ≠ [] → ∀ value, first ≠ (Value.boolean value).chars)
    (areMembers : ∀ member ∈ members, IsName member) : ∃ token, Spells token (joined '.' first members) := by
  by_cases isBoolean : ∃ value, first = (Value.boolean value).chars
  · obtain ⟨value, rfl⟩ := isBoolean
    cases members with
    | nil => exact ⟨.boolean value, by simpa [joined] using Spells.boolean value⟩
    | cons member rest => exact absurd rfl (notBoolean (by simp) value)
  · exact ⟨_, .name isFirst (fun value same => isBoolean ⟨value, same⟩) areMembers⟩

theorem IsName.snoc {name : List Char} {c : Char} (isName : IsName name) (goesOn : isNameChar c = true) :
    IsName (name ++ [c]) := by
  cases name with
  | nil => exact isName.elim
  | cons d rest =>
    obtain ⟨start, others⟩ := isName_cons.mp isName
    refine isName_cons.mpr ⟨start, ?_⟩
    intro e member
    rcases List.mem_append.mp member with member | member
    · exact others e member
    · exact (List.mem_singleton.mp member) ▸ goesOn

/-- A name that is the longest token is not followed by a further character of a name. -/
theorem ends_of_longest {first behind : List Char} {members : List (List Char)} (isFirst : IsName first)
    (notBoolean : members ≠ [] → ∀ value, first ≠ (Value.boolean value).chars)
    (areMembers : ∀ member ∈ members, IsName member) (longest : Longest (joined '.' first members) behind) :
    Ends isNameChar behind := by
  apply longest.ends
  intro c goesOn
  rcases List.eq_nil_or_concat members with rfl | ⟨init, last, rfl⟩
  · obtain ⟨token, spelled⟩ := @spells_of_isName _ [] (isFirst.snoc goesOn) (by simp) (by simp)
    exact ⟨token, by simpa [joined] using spelled⟩
  · rw [List.concat_eq_append] at areMembers notBoolean ⊢
    have areLonger : ∀ member ∈ init ++ [last ++ [c]], IsName member := by
      intro member among
      rcases List.mem_append.mp among with among | among
      · exact areMembers member (List.mem_append_left _ among)
      · exact (List.mem_singleton.mp among) ▸ (areMembers last (by simp)).snoc goesOn
    obtain ⟨token, spelled⟩ := spells_of_isName isFirst (fun _ => notBoolean (by simp)) areLonger
    exact ⟨token, by simpa [joined] using spelled⟩

theorem name?_eq_some {chars first rest : List Char} :
    name? chars = some (first, rest) ↔ chars = first ++ rest ∧ IsName first ∧ Ends isNameChar rest := by
  cases chars with
  | nil =>
    constructor
    · intro read
      simp [name?] at read
    · rintro ⟨same, isFirst, -⟩
      have none : first = [] := (List.append_eq_nil_iff.mp same.symm).1
      exact (none ▸ isFirst : IsName []).elim
  | cons c tail =>
    constructor
    · intro read
      rw [name?] at read
      split at read
      · next start =>
        obtain ⟨rfl, rfl⟩ := Prod.mk.inj (Option.some.inj read)
        refine ⟨by simp, isName_cons.mpr ⟨start, ?_⟩, ends_dropWhile isNameChar tail⟩
        exact fun d member => List.all_eq_true.mp List.all_takeWhile d member
      · contradiction
    · rintro ⟨same, isFirst, ends⟩
      cases first with
      | nil => exact isFirst.elim
      | cons d more =>
        obtain ⟨rfl, behind⟩ := List.cons.inj same
        obtain ⟨start, others⟩ := isName_cons.mp isFirst
        rw [show tail = more ++ rest from behind, name?, if_pos start, (run_append others ends).1,
          (run_append others ends).2]

theorem name?_eq_none {c : Char} (rest : List Char) (notStart : isNameStart c = false) : name? (c :: rest) = none := by
  simp [name?, notStart]

theorem outcome_members_point {name chars member behind : List Char} (point : chars.head? = some '.')
    (found : name? chars.tail = some (member, behind)) :
    outcome (members name chars) = outcome (members (name ++ '_' :: member) behind) := by
  rw [members, dif_pos point]
  split
  · next none => cases found.symm.trans none
  · next isMember =>
    cases found.symm.trans isMember
    cases members (name ++ '_' :: member) behind <;> rfl

theorem outcome_members_fails {name chars : List Char} (point : chars.head? = some '.')
    (notFound : name? chars.tail = none) : outcome (members name chars) = .error ⟨.memberName, chars.tail⟩ := by
  rw [members, dif_pos point]
  split
  · rfl
  · next found => cases notFound.symm.trans found

theorem outcome_members_end {name chars : List Char} (noPoint : chars.head? ≠ some '.') :
    outcome (members name chars) = .ok (name, chars) := by
  rw [members, dif_neg noPoint]
  rfl

/-- A point belongs to the first member, if none is left behind the last one. -/
theorem exists_first_part {parts : List (List Char)} {tail rest : List Char} (split : '.' :: tail = dotted parts ++ rest)
    (noPoint : Ends (· = '.') rest) : ∃ part others, parts = part :: others ∧ tail = part ++ (dotted others ++ rest) := by
  cases parts with
  | nil =>
    rw [show rest = '.' :: tail from split.symm] at noPoint
    simp at noPoint
  | cons part others => exact ⟨part, others, rfl, by simpa [dotted] using split⟩

/-- The members behind a name that ended are read to the end of the last one; no point is left in front. -/
theorem members_eq_ok {name chars full rest : List Char} (ended : Ends isNameChar chars) :
    outcome (members name chars) = .ok (full, rest) ↔
      ∃ parts, (∀ part ∈ parts, IsName part) ∧ chars = dotted parts ++ rest ∧ full = joined '_' name parts ∧
        Ends isNameChar rest ∧ Ends (· = '.') rest := by
  induction name, chars using members.induct generalizing full with
  | case1 name chars point notFound =>
    rw [outcome_members_fails point notFound]
    obtain ⟨tail, rfl⟩ := List.head?_eq_some_iff.mp point
    constructor
    · intro read
      contradiction
    · rintro ⟨parts, areParts, split, -, restEnds, noPoint⟩
      obtain ⟨part, others, rfl, inner⟩ := exists_first_part split noPoint
      have found := name?_eq_some.mpr ⟨inner, areParts part (by simp), ends_dotted restEnds others⟩
      simp [found] at notFound
  | case2 name chars point member more found shorter inductionHypothesis =>
    obtain ⟨tail, rfl⟩ := List.head?_eq_some_iff.mp point
    obtain ⟨same, isMember, ends⟩ := name?_eq_some.mp found
    obtain rfl : tail = member ++ more := same
    rw [outcome_members_point point found, inductionHypothesis ends]
    constructor
    · rintro ⟨parts, areParts, rfl, rfl, ends⟩
      refine ⟨member :: parts, ?_, by simp [dotted], by simp [joined], ends⟩
      intro part among
      rcases List.mem_cons.mp among with rfl | among
      · exact isMember
      · exact areParts part among
    · rintro ⟨parts, areParts, split, rfl, restEnds, noPoint⟩
      obtain ⟨part, others, rfl, inner⟩ := exists_first_part split noPoint
      obtain ⟨rfl, rfl⟩ := run_unique isMember.chars ends (areParts part (by simp)).chars
        (ends_dotted restEnds others) inner
      exact ⟨others, fun part among => areParts part (by simp [among]), rfl, by simp [joined], restEnds, noPoint⟩
  | case3 name chars noPoint =>
    rw [outcome_members_end noPoint]
    constructor
    · intro read
      obtain ⟨rfl, rfl⟩ := Prod.mk.inj (Except.ok.inj read)
      refine ⟨[], by simp, rfl, by simp [joined], ended, ?_⟩
      intro c isHead
      apply decide_eq_false
      rintro rfl
      exact noPoint isHead
    · rintro ⟨parts, -, split, rfl, -, -⟩
      cases parts with
      | nil =>
        obtain rfl : chars = rest := split
        rw [joined, List.flatMap_nil, List.append_nil]
      | cons part parts => exact absurd (congrArg List.head? split) noPoint

/-! ### Numbers -/

/-- In front of a digit or a point stands a number. -/
theorem number_of_startsWith {token : Token} {c : Char} (starts : token.StartsWith c)
    (inNumber : c.isDigit = true ∨ c = '.') : ∃ whole fraction, token = .number whole fraction := by
  cases token with
  | boolean value => exact absurd inNumber (notDigit_of_isNameStart starts)
  | name first members => exact absurd inNumber (notDigit_of_isNameStart starts)
  | number whole fraction => exact ⟨whole, fraction, rfl⟩
  | mark sign =>
    rcases inNumber with isDigit | isPoint
    · exact absurd (starts.2.1.symm.trans isDigit) (by decide)
    · exact absurd isPoint starts.2.2

theorem whole_longest {digits behind : List Char} (nonempty : digits ≠ []) (areDigits : ∀ c ∈ digits, c.isDigit = true)
    (ends : Ends Char.isDigit behind) (noPoint : Ends (· = '.') behind) : Longest digits behind := by
  intro token longer spelled inFront
  obtain ⟨c, tail, rfl⟩ := List.exists_cons_of_ne_nil nonempty
  have starts : token.StartsWith c := spelled.startsWith inFront
  obtain ⟨rest, same⟩ := inFront
  obtain ⟨whole, fraction, rfl⟩ := number_of_startsWith starts (.inl (areDigits c (by simp)))
  cases spelled with
  | whole _ areOther => exact run_length_le areOther areDigits ends same
  | pointed _ areOther =>
    rw [List.append_assoc] at same
    have behindPoint := (run_unique (fun d member => areOther d (List.mem_append_left _ member))
      (by simp) areDigits ends same).2
    rw [← behindPoint] at noPoint
    simp at noPoint

theorem pointed_longest {whole fraction behind : List Char} (nonempty : whole ≠ [] ∨ fraction ≠ [])
    (areDigits : ∀ c ∈ whole ++ fraction, c.isDigit = true) (ends : Ends Char.isDigit behind) :
    Longest (whole ++ '.' :: fraction) behind := by
  intro token longer spelled inFront
  have areWhole : ∀ c ∈ whole, c.isDigit = true := fun c member => areDigits c (List.mem_append_left _ member)
  have point : Ends Char.isDigit ('.' :: (fraction ++ behind)) := by simp
  obtain ⟨c, tail, split, inNumber⟩ : ∃ c tail, whole ++ '.' :: fraction = c :: tail ∧ (c.isDigit = true ∨ c = '.') := by
    cases whole with
    | nil => exact ⟨'.', fraction, rfl, .inr rfl⟩
    | cons c tail => exact ⟨c, _, rfl, .inl (areWhole c (by simp))⟩
  have starts : token.StartsWith c := spelled.startsWith (by rwa [split] at inFront)
  obtain ⟨rest, same⟩ := inFront
  rw [List.append_assoc] at same
  obtain ⟨other, otherFraction, rfl⟩ := number_of_startsWith starts inNumber
  rw [List.length_append, List.length_cons]
  cases spelled with
  | whole _ areOther =>
    have shorter := run_length_le areOther areWhole point same
    omega
  | pointed _ areOther =>
    rw [List.append_assoc] at same
    obtain ⟨rfl, tails⟩ := run_unique (fun d member => areOther d (List.mem_append_left _ member))
      (by simp) areWhole point same
    have shorter := run_length_le (fun d member => areOther d (List.mem_append_right _ member))
      (fun d member => areDigits d (List.mem_append_right _ member)) ends (List.cons.inj tails).2
    rw [List.length_append, List.length_cons]
    omega

theorem Longest.noMoreDigits {digits behind : List Char} (areDigits : ∀ c ∈ digits, c.isDigit = true)
    (longest : Longest digits behind) : Ends Char.isDigit behind := by
  apply longest.ends
  intro c isDigit
  refine ⟨_, .whole (by simp) ?_⟩
  simpa [or_imp, forall_and] using ⟨areDigits, isDigit⟩

theorem Longest.noPoint {digits behind : List Char} (nonempty : digits ≠ [])
    (areDigits : ∀ c ∈ digits, c.isDigit = true) (longest : Longest digits behind) : Ends (· = '.') behind := by
  apply longest.ends
  intro c isPoint
  obtain rfl : c = '.' := by simpa using isPoint
  exact ⟨_, @Spells.pointed _ [] (.inl nonempty) (by simpa using areDigits)⟩

theorem Longest.noMoreFraction {whole fraction behind : List Char}
    (areDigits : ∀ c ∈ whole ++ fraction, c.isDigit = true) (longest : Longest (whole ++ '.' :: fraction) behind) :
    Ends Char.isDigit behind := by
  apply longest.ends
  intro c isDigit
  have areLonger : ∀ d ∈ whole ++ (fraction ++ [c]), d.isDigit = true := by
    rw [← List.append_assoc]
    intro d member
    rcases List.mem_append.mp member with member | member
    · exact areDigits d member
    · exact (List.mem_singleton.mp member) ▸ isDigit
  refine ⟨.number whole (fraction ++ [c]), ?_⟩
  simpa using Spells.pointed (.inr (by simp)) areLonger

theorem number?_whole {digits rest : List Char} (nonempty : digits ≠ []) (areDigits : ∀ c ∈ digits, c.isDigit = true)
    (ends : Ends Char.isDigit rest) (noPoint : Ends (· = '.') rest) :
    number? (digits ++ rest) = some (Number.ofParts digits [] 0, rest) := by
  have cut := run_append areDigits ends
  unfold number?
  simp only [cut.1, cut.2]
  split
  · simp at noPoint
  · rw [if_neg (by simp [nonempty])]

theorem number?_pointed {whole fraction rest : List Char} (nonempty : whole ≠ [] ∨ fraction ≠ [])
    (areDigits : ∀ c ∈ whole ++ fraction, c.isDigit = true) (ends : Ends Char.isDigit rest) :
    number? (whole ++ '.' :: fraction ++ rest) = some (Number.ofParts whole fraction 0, rest) := by
  have areWhole : ∀ c ∈ whole, c.isDigit = true := fun c member => areDigits c (List.mem_append_left _ member)
  have areFraction : ∀ c ∈ fraction, c.isDigit = true := fun c member => areDigits c (List.mem_append_right _ member)
  have cut := run_append areWhole (show Ends Char.isDigit ('.' :: (fraction ++ rest)) by simp)
  have cutFraction := run_append areFraction ends
  unfold number?
  rw [List.append_assoc, List.cons_append]
  simp only [cut.1, cut.2, cutFraction.1, cutFraction.2]
  rw [if_neg (Classical.not_and_iff_not_or_not.mpr nonempty)]

theorem spells_of_number? {chars rest : List Char} {value : Float} (read : number? chars = some (value, rest)) :
    ∃ whole fraction text, chars = text ++ rest ∧ Spells (.number whole fraction) text ∧ Longest text rest ∧
      value = Number.ofParts whole fraction 0 := by
  have areWhole : ∀ c ∈ chars.takeWhile Char.isDigit, c.isDigit = true :=
    fun c member => List.all_eq_true.mp List.all_takeWhile c member
  have wholeEnds := ends_dropWhile Char.isDigit chars
  have split : chars.takeWhile Char.isDigit ++ chars.dropWhile Char.isDigit = chars :=
    List.takeWhile_append_dropWhile
  unfold number? at read
  simp only at read
  split at read
  · next tail afterWhole =>
    rw [afterWhole] at split
    have areFraction : ∀ c ∈ tail.takeWhile Char.isDigit, c.isDigit = true :=
      fun c member => List.all_eq_true.mp List.all_takeWhile c member
    split at read
    · contradiction
    · next nonempty =>
      obtain ⟨rfl, rfl⟩ := Prod.mk.inj (Option.some.inj read)
      have someDigit := Classical.not_and_iff_not_or_not.mp nonempty
      have areDigits : ∀ c ∈ chars.takeWhile Char.isDigit ++ tail.takeWhile Char.isDigit, c.isDigit = true := by
        intro c member
        exact (List.mem_append.mp member).elim (areWhole c) (areFraction c)
      have longest := pointed_longest someDigit areDigits (ends_dropWhile Char.isDigit tail)
      refine ⟨_, _, _, ?_, .pointed someDigit areDigits, longest, rfl⟩
      rw [List.append_assoc, List.cons_append, List.takeWhile_append_dropWhile]
      exact split.symm
  · next noPoint =>
    split at read
    · contradiction
    · next nonempty =>
      obtain ⟨rfl, rfl⟩ := Prod.mk.inj (Option.some.inj read)
      have someDigit : chars.takeWhile Char.isDigit ≠ [] := by simpa using nonempty
      have notPoint : Ends (· = '.') (chars.dropWhile Char.isDigit) := by
        intro c isHead
        apply decide_eq_false
        rintro rfl
        obtain ⟨tail, dropped⟩ := List.head?_eq_some_iff.mp isHead
        exact noPoint tail dropped
      have longest := whole_longest someDigit areWhole wholeEnds notPoint
      exact ⟨_, [], _, split.symm, .whole someDigit areWhole, longest, rfl⟩

/-- A number is read exactly where one is the longest token in front. -/
theorem number?_eq_some {chars rest : List Char} {value : Float} :
    number? chars = some (value, rest) ↔
      ∃ whole fraction text, chars = text ++ rest ∧ Spells (.number whole fraction) text ∧ Longest text rest ∧
        value = Number.ofParts whole fraction 0 := by
  refine ⟨spells_of_number?, ?_⟩
  rintro ⟨whole, fraction, text, rfl, spelled, longest, rfl⟩
  cases spelled with
  | whole nonempty areDigits =>
    exact number?_whole nonempty areDigits (longest.noMoreDigits areDigits) (longest.noPoint nonempty areDigits)
  | pointed nonempty areDigits => exact number?_pointed nonempty areDigits (longest.noMoreFraction areDigits)

/-! ### Signs of operators -/

/-- In front of a character that belongs to no name and no number stands a mark. -/
theorem mark_of_startsWith {token : Token} {c : Char} (starts : token.StartsWith c) (notStart : isNameStart c = false)
    (notDigit : c.isDigit = false) (notPoint : c ≠ '.') : ∃ sign, token = .mark sign := by
  cases token with
  | boolean value => exact absurd (notStart.symm.trans starts) (by decide)
  | name first members => exact absurd (notStart.symm.trans starts) (by decide)
  | number whole fraction =>
    rcases starts with isDigit | isPoint
    · exact absurd (notDigit.symm.trans isDigit) (by decide)
    · exact absurd isPoint notPoint
  | mark sign => exact ⟨sign, rfl⟩

theorem marks_chars : marks.map String.toList =
    [['+'], ['-'], ['*'], ['/'], ['%'], ['<'], ['>'], ['<', '='], ['>', '='], ['=', '='], ['!', '='], ['&', '&'],
      ['|', '|'], ['-'], ['+'], ['!'], ['('], [')'], ['['], [']'], [',']] :=
  rfl

/-- A mark is the longest token unless it makes another mark together with the character behind it. -/
theorem mark_longest_iff {sign : String} {behind : List Char} (isMark : sign ∈ marks) :
    Longest sign.toList behind ↔ Ends (fun c => sign.toList ++ [c] ∈ marks.map String.toList) behind := by
  constructor
  · intro longest
    apply longest.ends
    intro c makesMark
    obtain ⟨other, isOther, same⟩ := List.mem_map.mp (of_decide_eq_true makesMark)
    exact ⟨.mark other, same ▸ .mark isOther⟩
  · intro ends token longer spelled inFront
    obtain ⟨c, rest, split, -, -, notStart, notDigit, notPoint, -⟩ := marks_visible sign isMark
    have starts : token.StartsWith c := spelled.startsWith (by rwa [split] at inFront)
    obtain ⟨other, rfl⟩ := mark_of_startsWith starts notStart notDigit notPoint
    cases spelled with
    | mark isOther =>
      obtain ⟨d, otherRest, otherSplit, -, -, -, -, -, otherShort⟩ := marks_visible other isOther
      rw [split, otherSplit] at inFront ⊢
      cases rest with
      | cons second rest =>
        simp only [List.length_cons] at otherShort ⊢
        omega
      | nil =>
        -- The other mark has one more character, which is the one behind this mark.
        cases otherRest with
        | nil => exact Nat.le_refl _
        | cons second otherRest =>
          obtain rfl : otherRest = [] := List.eq_nil_of_length_eq_zero (by simpa using otherShort)
          obtain ⟨more, same⟩ := inFront
          obtain ⟨rfl, tail⟩ := List.cons.inj same
          rw [show behind = second :: more from tail.symm, ends_cons, split] at ends
          have among : _ ∈ marks.map String.toList := List.mem_map_of_mem isOther
          rw [otherSplit] at among
          exact absurd among (of_decide_eq_false ends)

theorem binary_isMark (op : BinaryOp) : op.symbol ∈ marks := by
  cases op <;> decide

theorem unary_isMark (op : UnaryOp) : op.symbol ∈ marks := by
  cases op <;> decide

/-- Of the signs of binary operators only the two that may be followed by an equals sign can be too short. -/
theorem binary_longest_iff (op : BinaryOp) (behind : List Char) :
    Longest op.symbol.toList behind ↔ (op = .lt ∨ op = .gt → Ends (· = '=') behind) := by
  rw [mark_longest_iff (binary_isMark op), marks_chars]
  cases op <;> simp [BinaryOp.symbol, Ends]

theorem unary_longest_iff (op : UnaryOp) (behind : List Char) :
    Longest op.symbol.toList behind ↔ (op = .not → Ends (· = '=') behind) := by
  rw [mark_longest_iff (unary_isMark op), marks_chars]
  cases op <;> simp [UnaryOp.symbol, Ends]

theorem ends_equals_iff (chars : List Char) : Ends (· = '=') chars ↔ ∀ rest, chars ≠ '=' :: rest := by
  cases chars <;> simp

/-- Where a binary operator is found, its sign is the longest token in front, and it is as wide as it is long. -/
theorem operator?_spells {chars : List Char} {op : BinaryOp} {width : Nat}
    (found : operator? chars = .ok (some (op, width))) :
    chars = op.symbol.toList ++ chars.drop width ∧ Longest op.symbol.toList (chars.drop width) := by
  rw [binary_longest_iff, ends_equals_iff]
  revert found
  fun_cases operator? chars with
  | case12 rest notEquals | case13 rest notEquals =>
    rintro ⟨⟩
    exact ⟨rfl, fun _ => notEquals⟩
  | case14 | case15 | case16 | case17 => nofun
  | _ =>
    rintro ⟨⟩
    exact ⟨rfl, fun isShort => by simp at isShort⟩

/-- A binary operator is found where its sign is the longest token in front. -/
theorem operator?_of_longest {op : BinaryOp} {rest : List Char} (longest : Longest op.symbol.toList rest) :
    operator? (op.symbol.toList ++ rest) = .ok (some (op, op.symbol.toList.length)) := by
  rw [binary_longest_iff, ends_equals_iff] at longest
  cases op with
  | lt => exact operator?.eq_12 rest (longest (.inl rfl))
  | gt => exact operator?.eq_13 rest (longest (.inr rfl))
  | _ => rfl

/-- A binary operator is taken exactly where its sign is the longest token in front. -/
theorem takeOperator_eq_some {chars rest : List Char} {op : BinaryOp} :
    (∃ shorter, takeOperator chars = .ok (some (op, ⟨rest, shorter⟩))) ↔
      chars = op.symbol.toList ++ rest ∧ Longest op.symbol.toList rest := by
  constructor
  · rintro ⟨shorter, taken⟩
    unfold takeOperator at taken
    split at taken
    · contradiction
    · cases taken
    · next found =>
      cases taken
      exact operator?_spells found
  · rintro ⟨rfl, longest⟩
    have taken := takeOperator_some (operator?_of_longest longest)
    simp only [List.drop_left] at taken
    exact ⟨_, taken⟩

theorem sign?_spells {chars : List Char} {op : UnaryOp} {width : Nat} (found : sign? chars = some (op, width)) :
    chars = op.symbol.toList ++ chars.drop width ∧ Longest op.symbol.toList (chars.drop width) := by
  rw [unary_longest_iff]
  revert found
  fun_cases sign? chars with
  | case1 | case2 =>
    rintro ⟨⟩
    exact ⟨rfl, nofun⟩
  | case3 | case5 => nofun
  | case4 rest notEquals =>
    rintro ⟨⟩
    refine ⟨rfl, fun _ c isHead => decide_eq_false ?_⟩
    rintro rfl
    exact notEquals isHead

theorem sign?_of_longest {op : UnaryOp} {rest : List Char} (longest : Longest op.symbol.toList rest) :
    sign? (op.symbol.toList ++ rest) = some (op, op.symbol.toList.length) := by
  rw [unary_longest_iff] at longest
  cases op with
  | neg | plus => rfl
  | not =>
    have notEquals : rest.head? ≠ some '=' := fun isHead => by simpa using longest rfl '=' isHead
    exact if_neg notEquals

/-- A unary operator is taken exactly where its sign is the longest token in front. -/
theorem takeSign_eq_some {chars rest : List Char} {op : UnaryOp} :
    (∃ shorter, takeSign chars = some (op, ⟨rest, shorter⟩)) ↔
      chars = op.symbol.toList ++ rest ∧ Longest op.symbol.toList rest := by
  constructor
  · rintro ⟨shorter, taken⟩
    unfold takeSign at taken
    split at taken
    · contradiction
    · next found =>
      cases taken
      exact sign?_spells found
  · rintro ⟨rfl, longest⟩
    have taken := takeSign_some (sign?_of_longest longest)
    simp only [List.drop_left] at taken
    exact ⟨_, taken⟩

end TradingStrategy.Expr

import TradingStrategy.Json.Path
import TradingStrategy.Proofs.Number.Plain

/-!
Written paths lead back into values.

Owns:
- `readPath?`: the path that a text writes, read from its end, where every step closes with the character that it
  starts with;
- `readPath?_pathText`: a path is read as it was written if none of its keys has a character that separates steps;
- `follow?`: the value that a written path leads to.
-/

namespace TradingStrategy.Json

/-- The position of a step in brackets, behind its opening one. -/
def readPosition? (chars : List Char) : Option Nat :=
  let digits := chars.dropLast
  if chars.getLast? = some ']' ∧ digits ≠ [] ∧ digits.all Char.isDigit then some (Number.digitsValue digits) else none

/-- One character more in front of those of the present step and of the steps behind it. -/
def readPathChar (c : Char) : List Char × Path → Option (List Char × Path)
  | (chars, steps) =>
      if c = '.' then some ([], .key (String.ofList chars) :: steps)
      else if c = '[' then (readPosition? chars).map fun index => ([], .position index :: steps)
      else some (c :: chars, steps)

/-- The first step of a path is a key without a point. A dollar sign stands for the root. -/
def readPathStart : List Char × Path → Path
  | (chars, steps) => if chars = [] ∨ chars = ['$'] then steps else .key (String.ofList chars) :: steps

/-- The path that a text writes. -/
def readPath? (text : String) : Option Path :=
  (text.toList.foldrM readPathChar ([], [])).map readPathStart

/-- The value that a written path leads to. -/
def follow? (value : Json) (text : String) : Option Json :=
  (readPath? text).bind value.at?

/-- A key that does not stand for the root and has no character that separates steps. -/
def IsPlainKey (key : String) : Prop :=
  key.toList ≠ [] ∧ key.toList ≠ ['$'] ∧ ∀ c ∈ key.toList, c ≠ '.' ∧ c ≠ '['

instance (key : String) : Decidable (IsPlainKey key) :=
  -- Named, as a test of all characters there are may be found first.
  have : Decidable (∀ c ∈ key.toList, c ≠ '.' ∧ c ≠ '[') := List.decidableBAll (fun c => c ≠ '.' ∧ c ≠ '[') key.toList
  inferInstanceAs (Decidable (_ ∧ _ ∧ _))

/-- The keys of a path are plain. -/
def IsPlainPath (path : Path) : Prop :=
  ∀ key, .key key ∈ path → IsPlainKey key

@[simp]
theorem isPlainPath_nil : IsPlainPath [] :=
  fun _ member => absurd member List.not_mem_nil

theorem isPlainPath_append {path more : Path} : IsPlainPath (path ++ more) ↔ IsPlainPath path ∧ IsPlainPath more := by
  simp only [IsPlainPath, List.mem_append, or_imp, forall_and]

@[simp]
theorem isPlainPath_key {key : String} {path : Path} :
    IsPlainPath (.key key :: path) ↔ IsPlainKey key ∧ IsPlainPath path := by
  simp [IsPlainPath, or_imp, forall_and]

@[simp]
theorem isPlainPath_position {index : Nat} {path : Path} :
    IsPlainPath (.position index :: path) ↔ IsPlainPath path := by
  simp [IsPlainPath]

instance decidableIsPlainPath : (path : Path) → Decidable (IsPlainPath path)
  | [] => isTrue isPlainPath_nil
  | .key _ :: rest =>
      have := decidableIsPlainPath rest
      decidable_of_iff' _ isPlainPath_key
  | .position _ :: rest =>
      have := decidableIsPlainPath rest
      decidable_of_iff' _ isPlainPath_position

/-! ### Reading what was written -/

theorem foldrM_readPathChar {chars : List Char} (plain : ∀ c ∈ chars, c ≠ '.' ∧ c ≠ '[') (behind : List Char)
    (steps : Path) : chars.foldrM readPathChar (behind, steps) = some (chars ++ behind, steps) := by
  induction chars with
  | nil => rfl
  | cons first rest inductionHypothesis =>
    obtain ⟨⟨notPoint, notBracket⟩, restPlain⟩ := List.forall_mem_cons.mp plain
    rw [List.foldrM_cons, inductionHypothesis restPlain]
    simp [readPathChar, notPoint, notBracket]

theorem readPosition?_digitChars (index : Nat) : readPosition? (Number.digitChars index ++ [']']) = some index := by
  have digits : (Number.digitChars index).all Char.isDigit = true := by
    simpa using fun c => Number.digitChars_digits c
  simp [readPosition?, Number.digitChars_ne_nil, digits, Number.digitsValue_digitChars]

theorem foldrM_suffix {step : Step} (plain : IsPlainPath [step]) (steps : Path) :
    step.suffix.toList.foldrM readPathChar ([], steps) = some ([], step :: steps) := by
  cases step with
  | key name =>
    have isPlain := (plain name List.mem_cons_self).2.2
    have written : (Step.key name).suffix.toList = '.' :: name.toList := by simp [Step.suffix]
    rw [written, List.foldrM_cons, foldrM_readPathChar isPlain]
    simp [readPathChar]
  | position index =>
    have written : (Step.position index).suffix.toList = '[' :: (Number.digitChars index ++ [']']) := by
      simp [Step.suffix, Number.digitChars]
    have isPlain : ∀ c ∈ Number.digitChars index ++ [']'], c ≠ '.' ∧ c ≠ '[' := by
      intro c member
      rcases List.mem_append.mp member with digit | bracket
      · have isDigit := Number.digitChars_digits c digit
        constructor <;> rintro rfl <;> exact absurd isDigit (by decide)
      · rw [List.mem_singleton.mp bracket]
        decide
    rw [written, List.foldrM_cons, foldrM_readPathChar isPlain]
    simp [readPathChar, readPosition?_digitChars]

theorem foldrM_suffixes {path : Path} (plain : IsPlainPath path) :
    (String.join (path.map Step.suffix)).toList.foldrM readPathChar ([], []) = some ([], path) := by
  induction path with
  | nil => rfl
  | cons step rest inductionHypothesis =>
    obtain ⟨firstPlain, restPlain⟩ := (@isPlainPath_append [step] rest).mp plain
    rw [List.map_cons, String.join_cons, String.toList_append, List.foldrM_append, inductionHypothesis restPlain]
    exact foldrM_suffix firstPlain rest

/-- A path with plain keys is read as it was written. -/
theorem readPath?_pathText {path : Path} (plain : IsPlainPath path) : readPath? (pathText path) = some path := by
  cases path with
  | nil => rfl
  | cons step rest =>
    cases step with
    | key name =>
      obtain ⟨⟨notEmpty, notRoot, isPlain⟩, restPlain⟩ := isPlainPath_key.mp plain
      have read : (pathText (.key name :: rest)).toList.foldrM readPathChar ([], []) = some (name.toList, rest) := by
        rw [pathText, String.toList_append, List.foldrM_append, foldrM_suffixes restPlain]
        simpa using foldrM_readPathChar isPlain [] rest
      rw [readPath?, read, Option.map_some, readPathStart, if_neg (not_or.mpr ⟨notEmpty, notRoot⟩),
        String.ofList_toList]
    | position index =>
      have written : pathText (.position index :: rest) =
          String.join ((Step.position index :: rest).map Step.suffix) := rfl
      rw [readPath?, written, foldrM_suffixes plain]
      rfl

theorem follow?_pathText {path : Path} (plain : IsPlainPath path) (value : Json) :
    value.follow? (pathText path) = value.at? path := by
  rw [follow?, readPath?_pathText plain, Option.bind_some]

/-- A price of a target is found by its written path. -/
example : readPath? "orderPlans[0].targets[12].price" =
    some [.key "orderPlans", .position 0, .key "targets", .position 12, .key "price"] := by decide

end TradingStrategy.Json

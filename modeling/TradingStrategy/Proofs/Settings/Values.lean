import TradingStrategy.Proofs.Number.Whole
import TradingStrategy.Proofs.Outcome
import TradingStrategy.Proofs.Text.Blanks
import TradingStrategy.Proofs.Text.Lowercase
import TradingStrategy.Settings.Basic

/-!
The values of a settings file.

Owns:
- `Ini.IsTrimmed`: values without blanks around them, and that the values of every file that is read are such;
- `Ini.WritesBool`: the words that stand for a boolean;
- `Ini.Gives` and `Ini.IsValid`: what the value of a key stands for, and what is taken where there is none.
-/

namespace TradingStrategy.Ini

open Text (IsCaseOf firmLetters)

/-! ### Trimmed values -/

/-- No value has blanks around it. -/
def IsTrimmed (ini : Ini) : Prop :=
  ∀ place key raw, ini.string? place key = some raw → Text.trim raw = raw

theorem readEntry_trimmed {number : Nat} {chars : List Char} {key raw : String}
    (read : readEntry number chars = .ok (.entry key (some raw))) : Text.trim raw = raw := by
  unfold readEntry at read
  split at read
  · simp at read
  · next value _ =>
    dsimp only at read
    split at read
    · contradiction
    · simp only [Except.ok.injEq, IniLine.entry.injEq, Option.some.injEq] at read
      rw [← read.2, Text.trim_ofList]

theorem readLine_trimmed {number : Nat} {line : List Char} {key raw : String}
    (read : readLine number line = .ok (.entry key (some raw))) : Text.trim raw = raw := by
  unfold readLine at read
  split at read
  · simp at read
  · split at read
    · simp at read
    · contradiction
  · exact readEntry_trimmed read

theorem readLines_trimmed {number : Nat} {place : String} {lines : List (List Char)} {entries : List IniEntry}
    (read : readLines number place lines = .ok entries) :
    ∀ entry ∈ entries, ∀ raw, entry.value = some raw → Text.trim raw = raw := by
  induction lines generalizing number place entries with
  | nil =>
    rw [← Except.ok.inj read]
    simp
  | cons line rest inductionHypothesis =>
    obtain ⟨said, isSaid, read⟩ := bind_eq_ok read
    cases said with
    | nothing => exact inductionHypothesis read
    | opening name => exact inductionHypothesis read
    | entry key value =>
      obtain ⟨others, areOthers, read⟩ := bind_eq_ok read
      rw [← Except.ok.inj read]
      refine List.forall_mem_cons.mpr ⟨?_, inductionHypothesis areOthers⟩
      rintro raw rfl
      exact readLine_trimmed isSaid

theorem read_trimmed {text : String} {ini : Ini} (read : Ini.read text = .ok ini) : ini.IsTrimmed := by
  obtain ⟨entries, areEntries, read⟩ := bind_eq_ok read
  intro place key raw found
  obtain ⟨entry, isFound, isValue⟩ := Option.bind_eq_some_iff.mp found
  rw [← Except.ok.inj read] at isFound
  exact readLines_trimmed areEntries entry (List.mem_reverse.mp (List.mem_of_find?_eq_some isFound)) raw isValue

/-! ### Booleans -/

/-- A text is one of the words that stand for a boolean, in any case of its letters. -/
inductive WritesBool : String → Bool → Prop where
  | true {word text : String} (among : word ∈ ["true", "yes", "on", "1"])
      (isCase : IsCaseOf word.toList text.toList) : WritesBool text true
  | false {word text : String} (among : word ∈ ["false", "no", "off", "0"])
      (isCase : IsCaseOf word.toList text.toList) : WritesBool text false

theorem booleanWords_firm : ∀ word ∈ Settings.booleanWords, ∀ letter ∈ word.toList, letter ∈ firmLetters := by
  simp [Settings.booleanWords, firmLetters]

theorem lower_mem_iff {words : List String} (among : words ⊆ Settings.booleanWords) (text : String) :
    Text.lower text ∈ words ↔ ∃ word ∈ words, IsCaseOf word.toList text.toList := by
  constructor
  · intro member
    exact ⟨_, member, (Text.lower_eq_iff (booleanWords_firm _ (among member))).mp rfl⟩
  · rintro ⟨word, member, isCase⟩
    rwa [(Text.lower_eq_iff (booleanWords_firm word (among member))).mpr isCase]

theorem boolOf?_eq_some {raw : String} {value : Bool} : boolOf? raw = some value ↔ WritesBool (Text.trim raw) value := by
  have trueWords := @lower_mem_iff ["true", "yes", "on", "1"] (by decide) (Text.trim raw)
  have falseWords := @lower_mem_iff ["false", "no", "off", "0"] (by decide) (Text.trim raw)
  unfold boolOf?
  dsimp only
  simp only [List.contains_iff_mem]
  constructor
  · intro read
    split at read
    · next lowered =>
      obtain ⟨word, among, isCase⟩ := trueWords.mp lowered
      exact Option.some.inj read ▸ .true among isCase
    · split at read
      · next lowered =>
        obtain ⟨word, among, isCase⟩ := falseWords.mp lowered
        exact Option.some.inj read ▸ .false among isCase
      · contradiction
  · intro written
    cases written with
    | true among isCase => rw [if_pos (trueWords.mpr ⟨_, among, isCase⟩)]
    | false among isCase =>
      have lowered := falseWords.mpr ⟨_, among, isCase⟩
      have apart : ∀ word ∈ ["false", "no", "off", "0"], word ∉ ["true", "yes", "on", "1"] := by decide
      rw [if_neg (apart _ lowered), if_pos lowered]

/-- The words that the check knows are those that stand for a boolean. -/
theorem booleanWords_iff {text : String} :
    Settings.booleanWords.contains (Text.lower text) = true ↔ ∃ value, WritesBool text value := by
  rw [List.contains_iff_mem, lower_mem_iff fun _ member => member]
  have sorted : ∀ word ∈ Settings.booleanWords,
      word ∈ ["true", "yes", "on", "1"] ∨ word ∈ ["false", "no", "off", "0"] := by decide
  have trueWords : ["true", "yes", "on", "1"] ⊆ Settings.booleanWords := by decide
  have falseWords : ["false", "no", "off", "0"] ⊆ Settings.booleanWords := by decide
  constructor
  · rintro ⟨word, member, isCase⟩
    rcases sorted word member with isTrue | isFalse
    · exact ⟨true, .true isTrue isCase⟩
    · exact ⟨false, .false isFalse isCase⟩
  · rintro ⟨value, written⟩
    cases written with
    | true among isCase => exact ⟨_, trueWords among, isCase⟩
    | false among isCase => exact ⟨_, falseWords among, isCase⟩

/-! ### What a key gives -/

section
variable {α : Type} {ini : Ini} {place key : String} {writes other : String → α → Prop} {default value : α}

/-- The value of a key, if it has one, stands for something. -/
def IsValid (ini : Ini) (place key : String) (writes : String → α → Prop) : Prop :=
  ∀ raw, ini.string? place key = some raw → ∃ value, writes raw value

/-- A key gives what its value stands for, and the default only where it has no value. -/
def Gives (ini : Ini) (place key : String) (writes : String → α → Prop) (default value : α) : Prop :=
  match ini.string? place key with
  | some raw => writes raw value
  | none => value = default

/-- A key gives something exactly if its value is valid. -/
theorem exists_gives (default : α) : (∃ value, ini.Gives place key writes default value) ↔ ini.IsValid place key writes := by
  unfold Gives IsValid
  cases ini.string? place key with
  | none => simp
  | some raw => simp

theorem Gives.imp (gives : ini.Gives place key writes default value) (implies : ∀ raw, writes raw value → other raw value) :
    ini.Gives place key other default value := by
  unfold Gives at gives ⊢
  split at gives
  · exact implies _ gives
  · exact gives

/-- What holds of the default and of all that is written holds of what a key gives. -/
theorem Gives.holds (gives : ini.Gives place key writes default value) {holds : α → Prop} (byDefault : holds default)
    (written : ∀ raw, writes raw value → holds value) : holds value := by
  unfold Gives at gives
  split at gives
  · exact written _ gives
  · exact gives ▸ byDefault

end

end TradingStrategy.Ini

import Mathlib.Data.List.Forall2
import TradingStrategy.Text.Lowercase

/-!
Words in any case of their letters.

Owns:
- the firm letters, which are the lower-case forms of themselves and of their capitals, and of no other character;
- `lower_eq_iff`: a text has a word of firm letters as its lower-case form exactly if it is the word in some case.

The small letters `i` and `k` are not firm: the capital I with a dot and the Kelvin sign fall on them.
-/

namespace TradingStrategy.Text

/-- The small letters without `i` and `k`, and the digits. -/
def firmLetters : List Char :=
  ['a', 'b', 'c', 'd', 'e', 'f', 'g', 'h', 'j', 'l', 'm', 'n', 'o', 'p', 'q', 'r', 's', 't', 'u', 'v', 'w', 'x', 'y', 'z',
   '0', '1', '2', '3', '4', '5', '6', '7', '8', '9']

/-- The characters are those of a word, each of them as it is there or as a capital. -/
def IsCaseOf (word chars : List Char) : Prop :=
  List.Forall₂ (fun letter c => c = letter ∨ c = letter.toUpper) word chars

/-- What the firm letters are tested for one by one holds of each of them. -/
theorem firm_of_all {holds : Char → Prop} [DecidablePred holds]
    (tested : (firmLetters.all fun letter => decide (holds letter)) = true) : ∀ letter ∈ firmLetters, holds letter :=
  fun letter firm => of_decide_eq_true (List.all_eq_true.mp tested letter firm)

theorem firm_lower : ∀ letter ∈ firmLetters, lowerChar letter = [letter] ∧ lowerChar letter.toUpper = [letter] ∧
    letter ≠ 'Σ' ∧ letter.toUpper ≠ 'Σ' :=
  firm_of_all (by decide +kernel)

theorem firm_ne : ∀ letter ∈ firmLetters, letter ≠ 'i' ∧ letter ≠ 'σ' ∧ letter ≠ 'ς' ∧ 0 < letter.toNat :=
  firm_of_all (by decide)

/-- What a run takes to a firm letter is its capital. -/
theorem firm_run : ∀ letter ∈ firmLetters, ∀ run ∈ caseRuns,
    let code := ((letter.toNat : Int) - run.distance).toNat
    run.contains code = true → code = letter.toUpper.toNat :=
  firm_of_all (by decide +kernel)

theorem ofNat_eq {n : Nat} {c : Char} (positive : 0 < c.toNat) (same : Char.ofNat n = c) : n = c.toNat := by
  by_cases valid : n.isValidChar
  · rw [Char.ofNat, dif_pos valid] at same
    rw [← same]
    rfl
  · rw [Char.ofNat, dif_neg valid] at same
    rw [← same] at positive
    contradiction

variable {letter c : Char} {word chars : List Char}

theorem lowerChar_ne_nil (c : Char) : lowerChar c ≠ [] := by
  unfold lowerChar
  split
  · exact List.cons_ne_nil _ _
  · split <;> exact List.cons_ne_nil _ _

theorem lowerChar_eq_firm (firm : letter ∈ firmLetters) (lowered : lowerChar c = [letter]) :
    c = letter ∨ c = letter.toUpper := by
  unfold lowerChar at lowered
  split at lowered
  · simp at lowered
  · split at lowered
    · next run found =>
      have inRun := List.find?_some found
      have table := firm_run letter firm run (List.mem_of_find?_eq_some found)
      obtain ⟨-, -, -, positive⟩ := firm_ne letter firm
      have code := ofNat_eq positive (List.singleton_inj.mp lowered)
      have whence : ((letter.toNat : Int) - run.distance).toNat = c.toNat := by omega
      rw [whence] at table
      exact .inr (Char.toNat_inj.mp (table inRun))
    · exact .inl (List.singleton_inj.mp lowered)

/-- What a character turns into starts with a firm letter only if it is that letter alone. -/
theorem lowered_firm (firm : letter ∈ firmLetters) {before rest tail behind : List Char}
    (lowered : (if c = 'Σ' then [lowerSigma before rest] else lowerChar c) ++ tail = letter :: behind) :
    (c = letter ∨ c = letter.toUpper) ∧ tail = behind := by
  obtain ⟨notI, notSigma, notFinal, -⟩ := firm_ne letter firm
  split at lowered
  · exfalso
    have head : lowerSigma before rest = letter := (List.cons.inj lowered).1
    unfold lowerSigma at head
    split at head
    · exact notFinal head.symm
    · exact notSigma head.symm
  · have single : ∃ d, lowerChar c = [d] := by
      unfold lowerChar at lowered ⊢
      split
      · next isDotted =>
        rw [if_pos isDotted] at lowered
        exact absurd (List.cons.inj lowered).1.symm notI
      · split
        · exact ⟨_, rfl⟩
        · exact ⟨_, rfl⟩
    obtain ⟨d, isSingle⟩ := single
    rw [isSingle] at lowered
    obtain ⟨rfl, rest⟩ := List.cons.inj lowered
    exact ⟨lowerChar_eq_firm firm isSingle, rest⟩

theorem lowerBehind_eq_iff (firm : ∀ letter ∈ word, letter ∈ firmLetters) (before : List Char) :
    lowerBehind before chars = word ↔ IsCaseOf word chars := by
  induction chars generalizing before word with
  | nil => rw [lowerBehind, IsCaseOf, List.forall₂_nil_right_iff, eq_comm]
  | cons c rest inductionHypothesis =>
    rw [IsCaseOf, List.forall₂_cons_right_iff, lowerBehind]
    constructor
    · intro lowered
      cases word with
      | nil =>
        exfalso
        have empty := (List.append_eq_nil_iff.mp lowered).1
        split at empty
        · exact List.cons_ne_nil _ _ empty
        · exact lowerChar_ne_nil c empty
      | cons letter behind =>
        obtain ⟨isFirm, restFirm⟩ := List.forall_mem_cons.mp firm
        obtain ⟨isCase, others⟩ := lowered_firm isFirm lowered
        exact ⟨letter, behind, isCase, (inductionHypothesis restFirm _).mp others, rfl⟩
    · rintro ⟨letter, behind, isCase, others, rfl⟩
      obtain ⟨isFirm, restFirm⟩ := List.forall_mem_cons.mp firm
      obtain ⟨small, capital, notSigma, notCapitalSigma⟩ := firm_lower letter isFirm
      rw [(inductionHypothesis restFirm _).mpr others]
      rcases isCase with rfl | rfl
      · rw [if_neg notSigma, small, List.singleton_append]
      · rw [if_neg notCapitalSigma, capital, List.singleton_append]

/-- A text has a word of firm letters as its lower-case form exactly if it is the word in some case of its letters. -/
theorem lower_eq_iff {text word : String} (firm : ∀ letter ∈ word.toList, letter ∈ firmLetters) :
    lower text = word ↔ IsCaseOf word.toList text.toList := by
  rw [← lowerBehind_eq_iff firm [], lower, ← String.toList_inj, String.toList_ofList]

end TradingStrategy.Text

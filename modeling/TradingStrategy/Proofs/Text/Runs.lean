import Mathlib.Data.List.Basic

/-!
Runs of characters of a class.

Owns: that a run of a class in front of what does not go on with it is what `takeWhile` and `dropWhile` cut off, and
that there is only one such run.
-/

namespace TradingStrategy.Text

/-- The characters do not go on with one of a class. -/
def Ends (inClass : Char → Bool) (chars : List Char) : Prop :=
  ∀ c ∈ chars.head?, inClass c = false

@[simp] theorem ends_nil (inClass : Char → Bool) : Ends inClass [] := by
  simp [Ends]

@[simp] theorem ends_cons (inClass : Char → Bool) (c : Char) (rest : List Char) :
    Ends inClass (c :: rest) ↔ inClass c = false := by
  simp [Ends]

theorem ends_dropWhile (inClass : Char → Bool) (chars : List Char) : Ends inClass (chars.dropWhile inClass) := by
  intro c isHead
  cases dropped : chars.dropWhile inClass with
  | nil => simp [dropped] at isHead
  | cons d rest =>
    have isC : d = c := by simpa [dropped] using isHead
    have nonempty : chars.dropWhile inClass ≠ [] := by simp [dropped]
    have notIn := List.head_dropWhile_not inClass nonempty
    simpa [dropped, isC] using notIn

/-- A run of a class in front of what does not go on with it is what `takeWhile` and `dropWhile` cut off. -/
theorem run_append {inClass : Char → Bool} {run rest : List Char} (inRun : ∀ c ∈ run, inClass c = true)
    (ends : Ends inClass rest) :
    (run ++ rest).takeWhile inClass = run ∧ (run ++ rest).dropWhile inClass = rest := by
  have stops : rest.takeWhile inClass = [] ∧ rest.dropWhile inClass = rest := by
    cases rest with
    | nil => simp
    | cons c more =>
      have notIn : inClass c = false := by simpa using ends
      simp [notIn]
  rw [List.takeWhile_append_of_pos inRun, List.dropWhile_append_of_pos inRun, stops.1, stops.2, List.append_nil]
  exact ⟨rfl, rfl⟩

/-- A run of a class is no longer than all of the class that stands there. -/
theorem run_length_le {inClass : Char → Bool} {run behind other rest : List Char}
    (inOther : ∀ c ∈ other, inClass c = true) (inRun : ∀ c ∈ run, inClass c = true) (ends : Ends inClass rest)
    (same : other ++ behind = run ++ rest) : other.length ≤ run.length := by
  have cut := (run_append inRun ends).1
  rw [← same, List.takeWhile_append_of_pos inOther] at cut
  have lengths := congrArg List.length cut
  rw [List.length_append] at lengths
  omega

/-- Two runs of a class that both end are the same one. -/
theorem run_unique {inClass : Char → Bool} {run behind other rest : List Char}
    (inOther : ∀ c ∈ other, inClass c = true) (otherEnds : Ends inClass behind)
    (inRun : ∀ c ∈ run, inClass c = true) (ends : Ends inClass rest)
    (same : other ++ behind = run ++ rest) : other = run ∧ behind = rest := by
  have first := run_append inOther otherEnds
  have second := run_append inRun ends
  rw [same] at first
  exact ⟨first.1.symm.trans second.1, first.2.symm.trans second.2⟩

end TradingStrategy.Text

/-!
Ascending lists without repetition.

Owns:
- insertion into an ascending list and the ascending list of given items;
- membership in it.

Sets whose order shows in an answer are kept as such lists.
-/

namespace TradingStrategy.Text

/-- Puts an item into an ascending list, unless it is there already. -/
def insertAscending {α : Type} [DecidableEq α] (less : α → α → Bool) (item : α) : List α → List α
  | [] => [item]
  | head :: rest =>
      if item = head then head :: rest
      else if less item head then item :: head :: rest
      else head :: insertAscending less item rest

/-- The items in ascending order, each once. -/
def ascending {α : Type} [DecidableEq α] (less : α → α → Bool) (items : List α) : List α :=
  items.foldr (insertAscending less) []

/-- Names in ascending order, each once. -/
def ascendingNames (names : List String) : List String :=
  ascending (fun a b => decide (a < b)) names

theorem mem_insertAscending {α : Type} [DecidableEq α] (less : α → α → Bool) (item x : α) (items : List α) :
    x ∈ insertAscending less item items ↔ x = item ∨ x ∈ items := by
  induction items with
  | nil => simp [insertAscending]
  | cons head rest inductionHypothesis =>
    unfold insertAscending
    split
    · next same => simp [same]
    · split
      · simp
      · simp only [List.mem_cons, inductionHypothesis]
        constructor
        · rintro (h | h | h) <;> simp [h]
        · rintro (h | h | h) <;> simp [h]

/-- The ascending list holds exactly the given items. -/
theorem mem_ascending {α : Type} [DecidableEq α] (less : α → α → Bool) (x : α) (items : List α) :
    x ∈ ascending less items ↔ x ∈ items := by
  induction items with
  | nil => simp [ascending]
  | cons head rest inductionHypothesis =>
    simp only [ascending, List.foldr_cons, mem_insertAscending, List.mem_cons] at *
    rw [inductionHypothesis]

end TradingStrategy.Text

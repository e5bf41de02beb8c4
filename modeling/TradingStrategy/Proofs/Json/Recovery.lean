import TradingStrategy.Proofs.Json.Pretty

/-!
What is recovered from the text of a value.

Owns:
- `Recovers`: a reader finds a value in what stands in a text for its JSON form exactly if the value is sound, and then
  it finds that value;
- that strings and finite numbers are recovered, and lists item by item;
- `IsFreeForm`: the values that are held as they are, whatever their form.
-/

namespace TradingStrategy.Json

/-- In what stands in a text for the JSON form of a value, the reader finds the value if it is sound, and nothing
otherwise. -/
def Recovers {α : Type} (read : Json → Option α) (json : Json) (sound : Prop) (value : α) : Prop :=
  ∀ found, read json.written = some found ↔ sound ∧ value = found

section Recovers

variable {α : Type} {read : Json → Option α}

theorem recovers_float (x : Float) : Recovers number? (.float x) (x.isFinite = true) x := by
  intro found
  by_cases finite : x.isFinite = true
  · simp [written, finite, number?]
  · simp [written, finite, number?]

theorem recovers_string (text : String) : Recovers string? (.string text) True text := by
  intro found
  simp [string?]

/-- The items of a list are recovered one by one. -/
theorem recovers_list {encode : α → Json} {soundItem : α → Prop} {values : List α}
    (each : ∀ value ∈ values, Recovers read (encode value) (soundItem value) value) :
    Recovers (list? read) (.array (values.map encode)) (∀ value ∈ values, soundItem value) values := by
  intro found
  rw [written, writtenItems_eq, List.map_map]
  show (values.map (written ∘ encode)).mapM read = some found ↔ _
  induction values generalizing found with
  | nil => simp
  | cons first others inductionHypothesis =>
    have isFirst := each first List.mem_cons_self
    have areOthers := inductionHypothesis fun value member => each value (List.mem_cons_of_mem _ member)
    simp only [List.map_cons, List.mapM_cons, Option.bind_eq_bind, Option.bind_eq_some_iff, Function.comp_apply,
      isFirst _, areOthers]
    simp [and_assoc]

end Recovers

/-- A value of any form, as it is held: whole numbers have 64 bits, doubles are finite, and the fields of an object are
in order, each once. -/
structure IsFreeForm (json : Json) : Prop where
  canonical : json.canonical = json
  whole : json.AllScalars Fits
  finite : json.AllScalars IsFinite

end TradingStrategy.Json

import TradingStrategy.Json.Path
import TradingStrategy.Proofs.Json.Reading

/-!
Values as they are held.

Owns:
- `stored`: the value that holds a JSON form: doubles that are not finite are null, and fields are in order;
- `lookup?_canonicalFields`, `record?_of_ascending`: putting fields in order changes neither the value of a field nor a
  record, in which each name counts once;
- what a field, a record and a list are in a stored form;
- `stored_freeForm`: a stored form can be held, if its whole numbers can.
-/

namespace TradingStrategy.Json

/-! ### Fields in order -/

section Fields

variable {name : String} {field : String × Json} {fields ordered : List (String × Json)}

/-- The last field of a name counts. -/
theorem lookup?_cons (name : String) (field : String × Json) (fields : List (String × Json)) :
    lookup? name (field :: fields) =
      (lookup? name fields).or (if field.1 = name then some field.2 else none) := by
  unfold lookup?
  rw [List.reverse_cons, List.find?_append, List.find?_singleton]
  cases fields.reverse.find? (fun field => field.1 == name) with
  | some found => rfl
  | none =>
    by_cases same : field.1 = name
    · simp [same]
    · simp [same]

theorem lookup?_map (name : String) (change : Json → Json) (fields : List (String × Json)) :
    lookup? name (fields.map fun field => (field.1, change field.2)) = (lookup? name fields).map change := by
  induction fields with
  | nil => rfl
  | cons first rest inductionHypothesis =>
    rw [List.map_cons, lookup?_cons, lookup?_cons, inductionHypothesis]
    cases lookup? name rest with
    | some value => rfl
    | none =>
      rw [Option.map_none, Option.none_or, Option.none_or]
      split <;> rfl

theorem lookup?_eq_none (other : ∀ field ∈ fields, name ≠ field.1) : lookup? name fields = none := by
  induction fields with
  | nil => rfl
  | cons first rest inductionHypothesis =>
    obtain ⟨notFirst, notRest⟩ := List.forall_mem_cons.mp other
    rw [lookup?_cons, inductionHypothesis notRest, if_neg notFirst.symm]
    rfl

theorem lookup?_insertField (ascending : ordered.Pairwise fun first second => first.1 < second.1) :
    lookup? name (insertField field ordered) = if field.1 = name then some field.2 else lookup? name ordered := by
  induction ordered with
  | nil =>
    rw [insertField, lookup?_cons]
    rfl
  | cons head rest inductionHypothesis =>
    obtain ⟨headFirst, restAscending⟩ := List.pairwise_cons.mp ascending
    -- Behind the field, in either of the first two cases, no other one has its name.
    have behind : ∀ {others : List (String × Json)}, (∀ other ∈ others, field.1 < other.1) →
        lookup? name (field :: others) = if field.1 = name then some field.2 else lookup? name others := by
      intro others greater
      rw [lookup?_cons]
      split
      · next same =>
        rw [lookup?_eq_none fun other among => same ▸ (greater other among).ne, Option.none_or]
      · rw [Option.or_none]
    unfold insertField
    split
    · next below =>
      exact behind (List.forall_mem_cons.mpr ⟨below, fun other among => below.trans (headFirst other among)⟩)
    · split
      · next same =>
        rw [behind fun other among => same ▸ headFirst other among, lookup?_cons name head]
        split
        · rfl
        · next different => rw [if_neg fun isHead => different (same.trans isHead), Option.or_none]
      · next different =>
        rw [lookup?_cons, inductionHypothesis restAscending, lookup?_cons name head]
        split
        · next isField => rfl
        · rfl

/-- Putting fields in order keeps the last one of each name. -/
theorem lookup?_canonicalFields (ascending : ordered.Pairwise fun first second => first.1 < second.1) :
    lookup? name (canonicalFields fields ordered) =
      ((lookup? name fields).map canonical).or (lookup? name ordered) := by
  induction fields generalizing ordered with
  | nil => rfl
  | cons first rest inductionHypothesis =>
    rw [canonicalFields, inductionHypothesis (insertField_ascending ascending), lookup?_insertField ascending,
      lookup?_cons]
    cases lookup? name rest with
    | some value => rfl
    | none =>
      simp only [Option.map_none, Option.none_or]
      split <;> rfl

/-- Among fields in ascending order each name counts once. -/
theorem filter_of_ascending (ascending : fields.Pairwise fun first second => first.1 < second.1) :
    fields.filter (fun field => field.1 == name) = ((lookup? name fields).map fun value => (name, value)).toList := by
  induction fields with
  | nil => rfl
  | cons first rest inductionHypothesis =>
    obtain ⟨greater, restAscending⟩ := List.pairwise_cons.mp ascending
    rw [List.filter_cons, inductionHypothesis restAscending, lookup?_cons]
    by_cases same : first.1 = name
    · rw [lookup?_eq_none fun other among => same ▸ (greater other among).ne]
      simp [← same]
    · simp [same]

/-- A record whose fields are in ascending order can be read. -/
theorem record?_of_ascending (ascending : fields.Pairwise fun first second => first.1 < second.1)
    (names : List String) : (object fields).record? names = some (names.map fun name => lookup? name fields) := by
  rw [record?]
  induction names with
  | nil => rfl
  | cons name others inductionHypothesis =>
    rw [List.mapM_cons, inductionHypothesis, filter_of_ascending ascending, List.map_cons]
    cases lookup? name fields <;> rfl

end Fields

/-! ### Stored forms -/

/-- The value that holds a JSON form: doubles that are not finite are null, and the fields of objects are in order. It
is what is read of the pretty text of the form (`readCanonical_written`). -/
def stored (json : Json) : Json :=
  json.written.canonical

@[simp] theorem stored_null : null.stored = null := rfl

@[simp] theorem stored_bool (value : Bool) : (bool value).stored = bool value := rfl

@[simp] theorem stored_int (n : ℤ) : (int n).stored = int n := rfl

@[simp] theorem stored_string (text : String) : (string text).stored = string text := rfl

theorem stored_float (x : Float) : (float x).stored = if x.isFinite then float x else null := by
  unfold stored written
  split <;> rfl

theorem stored_array (items : List Json) : (array items).stored = array (items.map stored) := by
  rw [stored, written, canonical, writtenItems_eq, canonicalItems_eq, List.map_map]
  rfl

theorem stored_object (fields : List (String × Json)) : (object fields).stored =
    object (canonicalFields (fields.map fun field => (field.1, field.2.written)) []) := by
  rw [stored, written_object]
  rfl

theorem stored_bool_ne_null (value : Bool) : (bool value).stored ≠ null := by
  simp

theorem stored_int_ne_null (n : ℤ) : (int n).stored ≠ null := by
  simp

theorem stored_string_ne_null (text : String) : (string text).stored ≠ null := by
  simp

theorem stored_array_ne_null (items : List Json) : (array items).stored ≠ null := by
  simp [stored_array]

theorem stored_object_ne_null (fields : List (String × Json)) : (object fields).stored ≠ null := by
  simp [stored_object]

/-- The names in a stored object are those of its form. -/
theorem mem_stored_object {fields held : List (String × Json)} (isStored : (object fields).stored = object held)
    {field : String × Json} (among : field ∈ held) : ∃ original ∈ fields, field.1 = original.1 := by
  rw [stored_object] at isStored
  rw [← Json.object.inj isStored] at among
  rcases mem_canonicalFields among with inNone | ⟨written, isWritten, rfl⟩
  · contradiction
  · obtain ⟨original, member, rfl⟩ := List.mem_map.mp isWritten
    exact ⟨original, member, rfl⟩

/-- A field of a stored object holds the last field of that name. -/
theorem field?_stored (name : String) (fields : List (String × Json)) :
    (object fields).stored.field? name = (lookup? name fields).map stored := by
  rw [stored_object]
  show lookup? name _ = _
  rw [lookup?_canonicalFields List.Pairwise.nil, lookup?_map, Option.map_map]
  exact Option.or_none

/-- A stored object is a record of the fields of its form. -/
theorem record?_stored (names : List String) (fields : List (String × Json)) :
    (object fields).stored.record? names = some (names.map fun name => (lookup? name fields).map stored) := by
  have each : ∀ name, (object fields).stored.field? name = (lookup? name fields).map stored :=
    fun name => field?_stored name fields
  rw [stored_object] at each ⊢
  rw [record?_of_ascending (canonicalFields_ascending List.Pairwise.nil)]
  exact congrArg some (List.map_congr_left fun name _ => each name)

theorem list?_stored {α : Type} {read : Json → Option α} {encode : α → Json} {values : List α}
    (each : ∀ value ∈ values, read (encode value).stored = some value) :
    list? read (array (values.map encode)).stored = some values := by
  rw [stored_array, List.map_map]
  show (values.map (stored ∘ encode)).mapM read = some values
  induction values with
  | nil => rfl
  | cons first others inductionHypothesis =>
    obtain ⟨isFirst, areOthers⟩ := List.forall_mem_cons.mp each
    rw [List.map_cons, List.mapM_cons, Function.comp_apply, isFirst, inductionHypothesis areOthers]
    rfl

/-! ### What can be held -/

theorem allScalars_written {json : Json} (fits : json.AllScalars Fits) : json.written.AllScalars IsHoldable := by
  induction json using induction with
  | scalar json isScalar =>
    cases json with
    | array | object => contradiction
    | float x =>
      rw [written]
      split
      · next finite => exact (allScalars_float x).mpr ⟨fits_float x, fun y same => float.inj same ▸ finite⟩
      · exact allScalars_null.mpr ⟨fits_null, by simp [IsFinite]⟩
    | null | bool | int | string =>
      exact (allScalars_scalar rfl).mpr ⟨(allScalars_scalar rfl).mp fits, by simp [IsFinite]⟩
  | array items inductionHypothesis =>
    rw [written, writtenItems_eq, allScalars_array, List.forall_mem_map]
    exact fun item member => inductionHypothesis item member ((allScalars_array items).mp fits item member)
  | object fields inductionHypothesis =>
    rw [written_object, allScalars_object, List.forall_mem_map]
    exact fun field member => inductionHypothesis field member ((allScalars_object fields).mp fits field member)

theorem stored_freeForm {json : Json} (fits : json.AllScalars Fits) : json.stored.IsFreeForm :=
  isFreeForm_iff.mpr ⟨canonical_ordered _, allScalars_canonical (allScalars_written fits)⟩

/-- A value of free form is held as it is. -/
theorem IsFreeForm.stored {json : Json} (freeForm : json.IsFreeForm) : json.stored = json := by
  rw [Json.stored, written_of_finite json freeForm.finite, freeForm.canonical]

end TradingStrategy.Json

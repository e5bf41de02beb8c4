import TradingStrategy.Proofs.Document.Soundness
import TradingStrategy.Proofs.Json.Stored

/-!
Places in stored values.

Owns:
- `Gives`: an outcome is a value if that is sound, and a failure otherwise; how outcomes in a row give theirs;
- `Validates`: wherever the stored form of a value is, the reader of a place gives the value;
- fields and items of stored forms, one after another.
-/

namespace TradingStrategy

open StrategyDocument (nodup_appended)

/-! ### Outcomes -/

/-- An outcome is the value if that is sound, and a failure otherwise. -/
def Gives {ε α : Type} (outcome : Except ε α) (sound : Prop) (value : α) : Prop :=
  ∀ found, outcome = .ok found ↔ sound ∧ value = found

namespace Gives

variable {ε α β : Type} {outcome : Except ε α} {sound further : Prop} {value : α} {next : α → Except ε β} {result : β}

protected theorem pure (value : α) : Gives (pure value : Except ε α) True value := by
  intro found
  rw [true_and]
  exact ⟨Except.ok.inj, congrArg Except.ok⟩

protected theorem error {error : ε} (unsound : ¬sound) : Gives (.error error) sound value :=
  fun _ => ⟨nofun, fun ⟨isSound, _⟩ => absurd isSound unsound⟩

theorem congr (gives : Gives outcome sound value) (same : sound ↔ further) : Gives outcome further value :=
  fun found => (gives found).trans (and_congr_left' same)

/-- A first step that succeeds is made. -/
theorem step {inner : α} (made : outcome = .ok inner) (rest : Gives (next inner) sound result) :
    Gives (outcome >>= next) sound result := by
  rw [made]
  exact rest

protected theorem bind (first : Gives outcome sound value) (rest : sound → Gives (next value) further result) :
    Gives (outcome >>= next) (sound ∧ further) result := by
  intro found
  constructor
  · intro ended
    obtain ⟨inner, isInner, ended⟩ := bind_eq_ok ended
    obtain ⟨isSound, rfl⟩ := (first inner).mp isInner
    obtain ⟨isFurther, same⟩ := (rest isSound found).mp ended
    exact ⟨⟨isSound, isFurther⟩, same⟩
  · rintro ⟨⟨isSound, isFurther⟩, same⟩
    rw [(first value).mpr ⟨isSound, rfl⟩]
    exact (rest isSound found).mpr ⟨isFurther, same⟩

/-- A condition on which the outcome is a failure. -/
theorem refuse_if {condition : Prop} [Decidable condition] {error : ε}
    (rest : ¬condition → Gives outcome sound value) :
    Gives (if condition then .error error else outcome) (¬condition ∧ sound) value := by
  by_cases holds : condition
  · rw [if_pos holds]
    exact .error fun isSound => isSound.1 holds
  · rw [if_neg holds]
    exact (rest holds).congr (and_iff_right holds).symm

/-- A condition without which the outcome is a failure. -/
theorem accept_if {condition : Prop} [Decidable condition] {error : ε} (rest : condition → Gives outcome sound value) :
    Gives (if condition then outcome else .error error) (condition ∧ sound) value := by
  by_cases holds : condition
  · rw [if_pos holds]
    exact (rest holds).congr (and_iff_right holds).symm
  · rw [if_neg holds]
    exact .error fun isSound => holds isSound.1

end Gives

/-! ### Fields -/

section Fields

variable {path : Json.Path} {key : String} {fields : List (String × Json)} {json : Json}

theorem asObject_stored (path : Json.Path) (fields : List (String × Json)) :
    Place.asObject ⟨path, (Json.object fields).stored⟩ = .ok ⟨path, (Json.object fields).stored⟩ := by
  rw [Json.stored_object]
  rfl

theorem place_field?_stored (isField : Json.lookup? key fields = some json) (present : json.stored ≠ .null) :
    Place.field? ⟨path, (Json.object fields).stored⟩ key = some ⟨path ++ [.key key], json.stored⟩ := by
  unfold Place.field?
  rw [Json.field?_stored, isField, Option.map_some]
  split
  · contradiction
  · next isNull => exact absurd (Option.some.inj isNull) present
  · next isValue => rw [Option.some.inj isValue]; rfl

/-- A field that is missing, or whose stored form is null, is not there. -/
theorem place_field?_none (missing : ∀ value, Json.lookup? key fields = some value → value.stored = .null) :
    Place.field? ⟨path, (Json.object fields).stored⟩ key = none := by
  unfold Place.field?
  rw [Json.field?_stored]
  cases isField : Json.lookup? key fields with
  | none => rfl
  | some value => rw [Option.map_some, missing value isField]

/-- A value that is null where its field is not there is the stored form of the field. -/
theorem place_field?_getD (path : Json.Path) (key : String) (fields : List (String × Json)) :
    ((Place.field? ⟨path, (Json.object fields).stored⟩ key).map Place.value).getD .null =
      ((Json.lookup? key fields).getD .null).stored := by
  unfold Place.field?
  rw [Json.field?_stored]
  cases Json.lookup? key fields with
  | none => rfl
  | some value =>
    rw [Option.map_some]
    split
    · contradiction
    · next isNull => exact (Option.some.inj isNull).symm
    · next isValue => exact (Option.some.inj isValue).symm

theorem Gives.field {α : Type} {next : Place → Except SchemaError α} {sound : Prop} {value : α}
    (isField : Json.lookup? key fields = some json) (present : sound → json.stored ≠ .null)
    (rest : Gives (next ⟨path ++ [.key key], json.stored⟩) sound value) :
    Gives (Place.field ⟨path, (Json.object fields).stored⟩ key >>= next) sound value := by
  unfold Place.field
  by_cases isNull : json.stored = .null
  · rw [place_field?_none fun other isOther => by rw [Option.some.inj (isOther.symm.trans isField), isNull]]
    exact .error fun isSound => present isSound isNull
  · rw [place_field?_stored isField isNull]
    exact rest

end Fields

/-! ### Readers -/

/-- Wherever the stored form of a value is, the reader gives the value. A value whose stored form is null is not sound,
since a field that is null counts as missing. -/
structure Validates {α : Type} (read : Place → Except SchemaError α) (json : Json) (sound : Prop) (value : α) :
    Prop where
  gives : ∀ path, Gives (read ⟨path, json.stored⟩) sound value
  present : sound → json.stored ≠ .null

section Readers

variable {α β : Type} {read : Place → Except SchemaError α} {json : Json} {sound : Prop} {value : α}

theorem Validates.field (validates : Validates read json sound value) {path : Json.Path} {key : String}
    {fields : List (String × Json)} {next : α → Except SchemaError β} {further : Prop} {result : β}
    (isField : Json.lookup? key fields = some json) (rest : sound → Gives (next value) further result) :
    Gives (Place.field ⟨path, (Json.object fields).stored⟩ key >>= fun place => read place >>= next) (sound ∧ further)
      result :=
  Gives.field isField (fun isSound => validates.present isSound.1) ((validates.gives _).bind rest)

/-- The items of an array are at places of their own. -/
theorem asItems_stored (path : Json.Path) (encode : α → Json) (values : List α) :
    ∃ items, Place.asItems ⟨path, (Json.array (values.map encode)).stored⟩ = .ok items ∧
      items.map Place.value = values.map fun value => (encode value).stored := by
  rw [Json.stored_array, List.map_map]
  refine ⟨_, rfl, ?_⟩
  rw [List.map_map]
  exact List.zipIdx_map_fst 0 _

theorem Gives.items {path : Json.Path} {encode : α → Json} {values : List α}
    {next : List Place → Except SchemaError β} {result : β}
    (rest : ∀ items, items.map Place.value = values.map (fun value => (encode value).stored) →
      Gives (next items) sound result) :
    Gives (Place.asItems ⟨path, (Json.array (values.map encode)).stored⟩ >>= next) sound result := by
  obtain ⟨items, areItems, held⟩ := asItems_stored path encode values
  exact .step areItems (rest items held)

theorem Gives.someItems {path : Json.Path} {encode : α → Json} {values : List α}
    {next : List Place → Except SchemaError β} {result : β}
    (rest : ∀ items, items.map Place.value = values.map (fun value => (encode value).stored) →
      Gives (next items) sound result) :
    Gives (Place.asSomeItems ⟨path, (Json.array (values.map encode)).stored⟩ >>= next) (values ≠ [] ∧ sound)
      result := by
  obtain ⟨items, areItems, held⟩ := asItems_stored path encode values
  unfold Place.asSomeItems
  rw [areItems]
  cases items with
  | nil =>
    have isEmpty := List.map_eq_nil_iff.mp held.symm
    exact .error fun isSound => isSound.1 isEmpty
  | cons first others =>
    have notEmpty : values ≠ [] := by
      rintro rfl
      contradiction
    exact (rest (first :: others) held).congr (and_iff_right notEmpty).symm

/-- Items that are read alike are read one by one. -/
theorem gives_mapM {encode : α → Json} {soundItem : α → Prop} {values : List α}
    (each : ∀ value ∈ values, Validates read (encode value) (soundItem value) value) {items : List Place}
    (held : items.map Place.value = values.map fun value => (encode value).stored) :
    Gives (items.mapM read) (∀ value ∈ values, soundItem value) values := by
  induction values generalizing items with
  | nil =>
    rw [List.map_eq_nil_iff.mp held]
    exact (Gives.pure []).congr (by simp)
  | cons first others inductionHypothesis =>
    obtain ⟨firstItem, otherItems, rfl, isFirst, areOthers⟩ := List.map_eq_cons_iff.mp held
    obtain ⟨validFirst, validOthers⟩ := List.forall_mem_cons.mp each
    obtain ⟨path, stored⟩ := firstItem
    obtain rfl : stored = (encode first).stored := isFirst
    rw [List.mapM_cons]
    exact ((validFirst.gives path).bind fun _ => (inductionHypothesis validOthers areOthers).bind fun _ =>
      .pure (first :: others)).congr (by simp)

/-- Items that are read after those before them are sound if they are, each alone, and if their keys are distinct. -/
theorem gives_foldlM {encode : α → Json} {soundItem : α → Prop} {key : α → String}
    {step : List α → Place → Except SchemaError α} {values before : List α}
    (each : ∀ before, ∀ value ∈ values,
      Validates (step before) (encode value) (soundItem value ∧ key value ∉ before.map key) value)
    {items : List Place} (held : items.map Place.value = values.map fun value => (encode value).stored)
    (distinct : (before.map key).Nodup) :
    Gives (items.foldlM (fun before item => do return before ++ [← step before item]) before)
      ((∀ value ∈ values, soundItem value) ∧ ((before ++ values).map key).Nodup) (before ++ values) := by
  induction values generalizing items before with
  | nil =>
    rw [List.map_eq_nil_iff.mp held, List.append_nil]
    exact (Gives.pure before).congr (by simp [distinct])
  | cons first others inductionHypothesis =>
    obtain ⟨firstItem, otherItems, rfl, isFirst, areOthers⟩ := List.map_eq_cons_iff.mp held
    obtain ⟨path, stored⟩ := firstItem
    obtain rfl : stored = (encode first).stored := isFirst
    have validOthers := fun before value member => each before value (List.mem_cons_of_mem first member)
    have readFirst : Gives (do return before ++ [← step before ⟨path, (encode first).stored⟩])
        ((soundItem first ∧ key first ∉ before.map key) ∧ True) (before ++ [first]) :=
      ((each before first List.mem_cons_self).gives path).bind fun _ => .pure _
    have whole : before ++ first :: others = before ++ [first] ++ others := List.append_cons ..
    rw [List.foldlM_cons, whole]
    refine (readFirst.bind fun isNew => inductionHypothesis validOthers areOthers
      (nodup_appended.mpr ⟨distinct, isNew.1.2⟩)).congr ?_
    rw [List.forall_mem_cons]
    constructor
    · rintro ⟨⟨⟨isFirst, _⟩, _⟩, areOthers, allDistinct⟩
      exact ⟨⟨isFirst, areOthers⟩, allDistinct⟩
    · rintro ⟨⟨isFirst, areOthers⟩, allDistinct⟩
      have upToFirst := allDistinct.sublist ((List.sublist_append_left _ others).map key)
      exact ⟨⟨⟨isFirst, (nodup_appended.mp upToFirst).2⟩, trivial⟩, areOthers, allDistinct⟩

end Readers

end TradingStrategy

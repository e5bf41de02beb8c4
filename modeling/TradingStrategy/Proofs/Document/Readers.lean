import TradingStrategy.Proofs.Document.Evidence
import TradingStrategy.Proofs.Document.Soundness

/-!
What readers of single places refuse.

Owns:
- `FailsWith`: whatever an outcome fails with has a property; how outcomes in a row keep this;
- `Place.IsIn`: a place that a value has; the fields and items of such a place are in the value too;
- one lemma per reader of a place: its refusals are shown by the value that it reads from.
-/

namespace TradingStrategy

/-! ### Outcomes -/

/-- Whatever an outcome fails with has a property. -/
def FailsWith {ε α : Type} (property : ε → Prop) (outcome : Except ε α) : Prop :=
  ∀ error, outcome = .error error → property error

namespace FailsWith

variable {ε α β : Type} {property further : ε → Prop}

protected theorem ok (value : α) : FailsWith property (.ok value) :=
  fun _ failed => nomatch failed

protected theorem error {error : ε} (holds : property error) : FailsWith property (.error error : Except ε α) := by
  intro other failed
  rw [← Except.error.inj failed]
  exact holds

protected theorem bind {outcome : Except ε α} {next : α → Except ε β} (first : FailsWith property outcome)
    (rest : ∀ value, outcome = .ok value → FailsWith property (next value)) :
    FailsWith property (outcome >>= next) := by
  intro error failed
  rcases bind_eq_error failed with failedFirst | ⟨value, isValue, failedRest⟩
  · exact first error failedFirst
  · exact rest value isValue error failedRest

theorem mono {outcome : Except ε α} (fails : FailsWith property outcome)
    (weaker : ∀ error, property error → further error) : FailsWith further outcome :=
  fun error failed => weaker error (fails error failed)

/-- Items that are read alike fail with what one of them fails with. -/
theorem mapM {read : α → Except ε β} {items : List α} (each : ∀ item ∈ items, FailsWith property (read item)) :
    FailsWith property (items.mapM read) := by
  induction items with
  | nil => exact .ok []
  | cons first rest inductionHypothesis =>
    obtain ⟨ofFirst, ofRest⟩ := List.forall_mem_cons.mp each
    rw [List.mapM_cons]
    exact ofFirst.bind fun _ _ => (inductionHypothesis ofRest).bind fun _ _ => .ok _

/-- A sequence that starts with a place that may be missing. -/
theorem bindOr {place? : Option Place} {property : SchemaError → Prop} {read : Place → Except SchemaError α}
    {default : α} {next : α → Except SchemaError β}
    (given : ∀ place, place? = some place → FailsWith property (read place))
    (rest : ∀ value, readOr read default place? = .ok value → FailsWith property (next value)) :
    FailsWith property (match place? with
      | some place => read place >>= next
      | none => .ok default >>= next) := by
  cases place? with
  | none => exact .bind (.ok default) rest
  | some place => exact .bind (given place rfl) rest

end FailsWith

/-! ### Places -/

namespace Place

/-- The value of a place stands at its path. -/
def IsIn (root : Json) (place : Place) : Prop :=
  root.at? place.path = some place.value

/-- A place of a value, with an object. -/
structure IsRecordIn (root : Json) (place : Place) : Prop where
  isIn : place.IsIn root
  isObject : ∃ fields, place.value = .object fields

variable {root : Json} {place inner : Place} {key : String}

theorem field?_eq_some (found : place.field? key = some inner) :
    inner.path = place.pathOf key ∧ place.value.field? key = some inner.value ∧ inner.value ≠ .null := by
  unfold field? at found
  split at found
  · contradiction
  · contradiction
  · next value notNull isField =>
    obtain rfl := Option.some.inj found
    exact ⟨rfl, isField, notNull⟩

theorem field?_eq_none (missing : place.field? key = none) :
    place.value.field? key = none ∨ place.value.field? key = some .null := by
  unfold field? at missing
  split at missing
  · next isField => exact .inl isField
  · next isField => exact .inr isField
  · contradiction

theorem field_eq_ok (found : place.field key = .ok inner) : place.field? key = some inner := by
  unfold field at found
  split at found
  · next isField => rw [isField, Except.ok.inj found]
  · contradiction

/-- A field that is found stands at the path with its key. -/
theorem IsIn.field? (isIn : place.IsIn root) (found : place.field? key = some inner) : inner.IsIn root := by
  obtain ⟨path, isField, _⟩ := field?_eq_some found
  rw [IsIn, path, pathOf, Json.at?_step isIn]
  exact isField

theorem field_path (found : place.field key = .ok inner) : inner.path = place.path ++ [.key key] :=
  (field?_eq_some (field_eq_ok found)).1

theorem IsIn.field (isIn : place.IsIn root) (found : place.field key = .ok inner) : inner.IsIn root :=
  isIn.field? (field_eq_ok found)

theorem IsIn.asObject (isIn : place.IsIn root) (read : place.asObject = .ok inner) :
    inner = place ∧ inner.IsRecordIn root := by
  unfold Place.asObject at read
  split at read
  · next fields isObject =>
    obtain rfl := Except.ok.inj read
    exact ⟨rfl, isIn, fields, isObject⟩
  · contradiction

/-- The items of a list are places of the value, each at its position. -/
theorem IsIn.asItems (isIn : place.IsIn root) {items : List Place} (read : place.asItems = .ok items) :
    ∃ values, place.value = .array values ∧
      items = (values.zipIdx.map fun (value, index) => ⟨place.path ++ [.position index], value⟩) ∧
      ∀ item ∈ items, item.IsIn root := by
  unfold Place.asItems at read
  split at read
  · next values isArray =>
    refine ⟨values, isArray, (Except.ok.inj read).symm, ?_⟩
    rw [← Except.ok.inj read]
    intro item member
    obtain ⟨⟨value, index⟩, stands, rfl⟩ := List.mem_map.mp member
    rw [IsIn, Json.at?_step isIn, isArray]
    exact List.mk_mem_zipIdx_iff_getElem?.mp stands
  · contradiction

/-- The places of the items of a list have the items as their values. -/
theorem values_of_places {list : Json.Path} {values : List Json} {items : List Place}
    (areItems : items = values.zipIdx.map fun (value, index) => ⟨list ++ [.position index], value⟩) :
    items.map Place.value = values := by
  rw [areItems, List.map_map]
  exact List.zipIdx_map_fst 0 values

/-! ### Values -/

theorem wrongType_shows {α : Type} (isIn : place.IsIn root) {expected : String}
    (other : place.value.kindName ∉ Json.admittedKinds expected) :
    FailsWith (·.ShownIn root) (place.wrongType expected : Except SchemaError α) :=
  .error ⟨place.value, isIn, rfl, other⟩

theorem field_shows (record : place.IsRecordIn root) (key : String) :
    FailsWith (·.ShownIn root) (place.field key) := by
  unfold Place.field
  split
  · exact .ok _
  · next missing =>
    obtain ⟨fields, isObject⟩ := record.isObject
    have absent := field?_eq_none missing
    rw [isObject] at absent
    exact .error ⟨place.path, key, fields, rfl, isObject ▸ record.isIn, absent⟩

/-- A field that must be there, its reader, and what follows on both. -/
theorem IsRecordIn.bindField {α β : Type} {read : Place → Except SchemaError α}
    {next : Place → α → Except SchemaError β} (record : place.IsRecordIn root) (key : String)
    (shows : ∀ {inner : Place}, inner.IsIn root → FailsWith (·.ShownIn root) (read inner))
    (rest : ∀ inner value, place.field key = .ok inner → read inner = .ok value →
      FailsWith (·.ShownIn root) (next inner value)) :
    FailsWith (·.ShownIn root) (place.field key >>= fun inner => read inner >>= next inner) :=
  .bind (field_shows record key) fun inner isField =>
    .bind (shows (record.isIn.field isField)) fun value isValue => rest inner value isField isValue

theorem asObject_shows (isIn : place.IsIn root) : FailsWith (·.ShownIn root) place.asObject := by
  obtain ⟨path, value⟩ := place
  cases value with
  | object fields => exact .ok _
  | null | bool | int | float | string | array =>
    exact wrongType_shows isIn (by simp [Json.kindName, Json.admittedKinds])

theorem asString_shows (isIn : place.IsIn root) : FailsWith (·.ShownIn root) place.asString := by
  obtain ⟨path, value⟩ := place
  cases value with
  | string text =>
    unfold asString
    dsimp only
    split
    · next isBlank => exact .error ⟨text, isIn, isBlank⟩
    · exact .ok text
  | null | bool | int | float | array | object =>
    exact wrongType_shows isIn (by simp [Json.kindName, Json.admittedKinds])

theorem asString_eq_ok {text : String} (read : place.asString = .ok text) : place.value = .string text := by
  unfold asString at read
  split at read
  · next own isString =>
    split at read
    · contradiction
    · rw [isString, Except.ok.inj read]
  · contradiction

theorem IsIn.asString (isIn : place.IsIn root) {text : String} (read : place.asString = .ok text) :
    root.at? place.path = some (.string text) := by
  rw [← asString_eq_ok read]
  exact isIn

theorem kindName_of_number? {value : Json} (noNumber : value.number? = none) :
    value.kindName ≠ "number" := by
  cases value with
  | int | float => contradiction
  | null | bool | string | array | object => simp [Json.kindName]

theorem kindName_of_not_string {value : Json} (noString : ∀ text, value ≠ .string text) :
    value.kindName ≠ "string" := by
  cases value with
  | string text => exact absurd rfl (noString text)
  | null | bool | int | float | array | object => simp [Json.kindName]

theorem asNumber_shows (isIn : place.IsIn root) : FailsWith (·.ShownIn root) place.asNumber := by
  unfold asNumber
  split
  · next x isNumber =>
    split
    · exact .ok x
    · next notFinite => exact .error ⟨place.value, x, isIn, isNumber, Bool.eq_false_of_not_eq_true notFinite⟩
  · next noNumber =>
    exact wrongType_shows isIn (by simpa [Json.admittedKinds] using kindName_of_number? noNumber)

theorem asNumber_eq_ok {x : Float} (read : place.asNumber = .ok x) : place.value.number? = some x := by
  unfold asNumber at read
  split at read
  · next own isNumber =>
    split at read
    · rw [isNumber, Except.ok.inj read]
    · contradiction
  · contradiction

theorem asPositive_shows (isIn : place.IsIn root) : FailsWith (·.ShownIn root) place.asPositive := by
  refine .bind (asNumber_shows isIn) fun x read => ?_
  split
  · next notAbove =>
    have notPositive : ¬0.0 < x := mt (Number.pos_iff_not_le (asNumber_finite read)).mp (not_not_intro notAbove)
    exact .error ⟨place.value, isIn, x, asNumber_eq_ok read, notPositive⟩
  · exact .ok x

theorem asBool_shows (isIn : place.IsIn root) : FailsWith (·.ShownIn root) place.asBool := by
  obtain ⟨path, value⟩ := place
  cases value with
  | bool value => exact .ok value
  | null | int | float | string | array | object =>
    exact wrongType_shows isIn (by simp [Json.kindName, Json.admittedKinds])

theorem asItems_shows (isIn : place.IsIn root) : FailsWith (·.ShownIn root) place.asItems := by
  obtain ⟨path, value⟩ := place
  cases value with
  | array items => exact .ok _
  | null | bool | int | float | string | object =>
    exact wrongType_shows isIn (by simp [Json.kindName, Json.admittedKinds])

theorem asSomeItems_eq_ok {items : List Place} (read : place.asSomeItems = .ok items) : place.asItems = .ok items := by
  unfold asSomeItems at read
  obtain ⟨found, isFound, read⟩ := bind_eq_ok read
  split at read
  · contradiction
  · rw [isFound, ← Except.ok.inj read]

theorem asSomeItems_shows (isIn : place.IsIn root) : FailsWith (·.ShownIn root) place.asSomeItems := by
  refine .bind (asItems_shows isIn) fun items read => ?_
  split
  · obtain ⟨values, isArray, noItems, _⟩ := isIn.asItems read
    have noValues : values = [] := by simpa using noItems.symm
    exact .error (isIn.trans (by rw [isArray, noValues]))
  · exact .ok _

theorem asPrice_shows (isIn : place.IsIn root) : FailsWith (·.ShownIn root) place.asPrice := by
  unfold asPrice
  split
  · next text isString =>
    split
    · next isBlank => exact .error ⟨text, isString ▸ isIn, isBlank⟩
    · exact .ok _
  · next noString =>
    split
    · next x isNumber =>
      split
      · exact .ok _
      · next notPositive =>
        exact .error ⟨place.value, isIn, x, isNumber, by simpa [Bool.and_eq_true] using notPositive⟩
    · next noNumber =>
      refine wrongType_shows isIn ?_
      have notString : place.value.kindName ≠ "string" := kindName_of_not_string noString
      simp [Json.admittedKinds, kindName_of_number? noNumber, notString]

theorem asPrice_literal {price : Float} (read : place.asPrice = .ok (.literal price)) :
    place.value.number? = some price := by
  unfold asPrice at read
  split at read
  · split at read
    · contradiction
    · exact PriceSpec.noConfusion (Except.ok.inj read)
  · split at read
    · next own isNumber =>
      split at read
      · rw [isNumber, PriceSpec.literal.inj (Except.ok.inj read)]
      · contradiction
    · contradiction

end Place

end TradingStrategy

import TradingStrategy.Json.Record
import TradingStrategy.Proofs.Json.Scalars

/-!
Pretty texts are read back.

Owns:
- induction over values, the scalars of a value and what stands in a text for a value;
- how deeply a value is nested, alone and with containers around it;
- `Covers`: a shape asks for every field of a value;
- `readAs_pretty`: the pretty text of a value is read as what stands in it for the value, if its containers are nested
  within the limit, and is refused otherwise.

The blanks that the printer puts in are all in front of a token, so a text is described by its first token and by what
follows it.
-/

namespace TradingStrategy.Json

open Text (Ends ends_cons)

/-! ### Values -/

/-- The value is no container. -/
def isScalar : Json → Bool
  | array _ => false
  | object _ => false
  | _ => true

/-- Induction over the items and the fields of a value. -/
theorem induction {motive : Json → Prop} (scalar : ∀ json, json.isScalar = true → motive json)
    (array : ∀ items, (∀ item ∈ items, motive item) → motive (.array items))
    (object : ∀ fields, (∀ field ∈ fields, motive field.2) → motive (.object fields)) (json : Json) : motive json := by
  refine @Json.rec motive (fun items => ∀ item ∈ items, motive item) (fun fields => ∀ field ∈ fields, motive field.2)
    (fun field => motive field.2) ?_ ?_ ?_ ?_ ?_ array object ?_ ?_ ?_ ?_ ?_ json
  · exact scalar _ rfl
  · exact fun _ => scalar _ rfl
  · exact fun _ => scalar _ rfl
  · exact fun _ => scalar _ rfl
  · exact fun _ => scalar _ rfl
  · simp
  · exact fun _ _ first rest => List.forall_mem_cons.mpr ⟨first, rest⟩
  · simp
  · exact fun _ _ first rest => List.forall_mem_cons.mpr ⟨first, rest⟩
  · exact fun _ _ isMotive => isMotive

mutual

/-- The scalars of a value, first to last. -/
def scalars : Json → List Json
  | array items => scalarsOfItems items
  | object fields => scalarsOfFields fields
  | value => [value]

/-- The scalars of the items. -/
def scalarsOfItems : List Json → List Json
  | [] => []
  | item :: rest => scalars item ++ scalarsOfItems rest

/-- The scalars of the values of the fields. -/
def scalarsOfFields : List (String × Json) → List Json
  | [] => []
  | (_, value) :: rest => scalars value ++ scalarsOfFields rest

end

mutual

/-- What stands in a text for a value: a double that is not finite is written as null. -/
def written : Json → Json
  | float value => if value.isFinite then float value else null
  | array items => array (writtenItems items)
  | object fields => object (writtenFields fields)
  | value => value

/-- What stands in a text for the items. -/
def writtenItems : List Json → List Json
  | [] => []
  | item :: rest => written item :: writtenItems rest

/-- What stands in a text for the fields. -/
def writtenFields : List (String × Json) → List (String × Json)
  | [] => []
  | (name, value) :: rest => (name, written value) :: writtenFields rest

end

theorem scalarsOfItems_eq (items : List Json) : scalarsOfItems items = items.flatMap scalars := by
  induction items with
  | nil => rfl
  | cons item rest inductionHypothesis => rw [scalarsOfItems, inductionHypothesis, List.flatMap_cons]

theorem scalarsOfFields_eq (fields : List (String × Json)) :
    scalarsOfFields fields = fields.flatMap fun field => scalars field.2 := by
  induction fields with
  | nil => rfl
  | cons field rest inductionHypothesis => rw [scalarsOfFields, inductionHypothesis, List.flatMap_cons]

theorem writtenItems_eq (items : List Json) : writtenItems items = items.map written := by
  induction items with
  | nil => rfl
  | cons item rest inductionHypothesis => rw [writtenItems, inductionHypothesis, List.map_cons]

theorem writtenFields_eq (fields : List (String × Json)) :
    writtenFields fields = fields.map fun field => (field.1, written field.2) := by
  induction fields with
  | nil => rfl
  | cons field rest inductionHypothesis => rw [writtenFields, inductionHypothesis, List.map_cons]

@[simp] theorem written_null : null.written = null := rfl

@[simp] theorem written_bool (value : Bool) : (bool value).written = bool value := rfl

@[simp] theorem written_int (value : ℤ) : (int value).written = int value := rfl

@[simp] theorem written_string (value : String) : (string value).written = string value := rfl

@[simp] theorem written_object (fields : List (String × Json)) :
    (object fields).written = object (fields.map fun field => (field.1, field.2.written)) := by
  rw [written, writtenFields_eq]

theorem heightOfItems_le_iff {items : List Json} {depth : ℕ} :
    heightOfItems items ≤ depth ↔ ∀ item ∈ items, item.height ≤ depth := by
  induction items with
  | nil => simp [heightOfItems]
  | cons item rest inductionHypothesis => simp [heightOfItems, inductionHypothesis]

theorem heightOfItems_cons_le {item : Json} {rest : List Json} {depth : ℕ} :
    heightOfItems (item :: rest) ≤ depth ↔ item.height ≤ depth ∧ heightOfItems rest ≤ depth :=
  max_le_iff

theorem heightOfFields_cons_le {name : String} {value : Json} {rest : List (String × Json)} {depth : ℕ} :
    heightOfFields ((name, value) :: rest) ≤ depth ↔ value.height ≤ depth ∧ heightOfFields rest ≤ depth :=
  max_le_iff

theorem heightOfFields_le_iff {fields : List (String × Json)} {depth : ℕ} :
    heightOfFields fields ≤ depth ↔ ∀ field ∈ fields, field.2.height ≤ depth := by
  induction fields with
  | nil => simp [heightOfFields]
  | cons field rest inductionHypothesis => simp [heightOfFields, inductionHypothesis]

theorem around_greatest_lt {α : Type} {values : List α} {height : α → ℕ} {greatest around limit : ℕ}
    (bound : ∀ depth, greatest ≤ depth ↔ ∀ value ∈ values, height value ≤ depth) :
    around + (greatest + 1) < limit ↔ around + 1 < limit ∧ ∀ value ∈ values, around + 1 + height value < limit := by
  constructor
  · intro below
    have each := (bound greatest).mp le_rfl
    exact ⟨by omega, fun value member => by have := each value member; omega⟩
  · rintro ⟨below, each⟩
    have within := (bound (limit - around - 2)).mpr fun value member => by have := each value member; omega
    omega

/-- With some containers around it, an array is within a limit if its items are, with one container more. -/
theorem around_array_lt {items : List Json} {around limit : ℕ} : around + (array items).height < limit ↔
    around + 1 < limit ∧ ∀ item ∈ items, around + 1 + item.height < limit :=
  around_greatest_lt fun _ => heightOfItems_le_iff

theorem around_object_lt {fields : List (String × Json)} {around limit : ℕ} : around + (object fields).height < limit ↔
    around + 1 < limit ∧ ∀ field ∈ fields, around + 1 + field.2.height < limit :=
  around_greatest_lt fun _ => heightOfFields_le_iff

@[simp] theorem height_bool (value : Bool) : (bool value).height = 0 := rfl

@[simp] theorem height_int (n : ℤ) : (int n).height = 0 := rfl

@[simp] theorem height_float (x : Float) : (float x).height = 0 := rfl

@[simp] theorem height_string (text : String) : (string text).height = 0 := rfl

theorem height_written (json : Json) : json.written.height = json.height := by
  induction json using induction with
  | scalar json isScalar =>
    cases json with
    | float x => rw [written]; split <;> rfl
    | null | bool | int | string => rfl
    | array | object => contradiction
  | array items inductionHypothesis =>
    have same : heightOfItems (writtenItems items) = heightOfItems items := by
      apply eq_of_forall_ge_iff
      intro depth
      rw [heightOfItems_le_iff, heightOfItems_le_iff, writtenItems_eq, List.forall_mem_map]
      exact forall₂_congr fun item member => by rw [inductionHypothesis item member]
    rw [written, height, height, same]
  | object fields inductionHypothesis =>
    have same : heightOfFields (writtenFields fields) = heightOfFields fields := by
      apply eq_of_forall_ge_iff
      intro depth
      rw [heightOfFields_le_iff, heightOfFields_le_iff, writtenFields_eq, List.forall_mem_map]
      exact forall₂_congr fun field member => by rw [inductionHypothesis field member]
    rw [written, height, height, same]

/-! ### Properties of scalars -/

/-- Every scalar of a value has a property. -/
def AllScalars (property : Json → Prop) (json : Json) : Prop :=
  ∀ scalar ∈ json.scalars, property scalar

section AllScalars

variable {property : Json → Prop}

theorem allScalars_scalar {json : Json} (isScalar : json.isScalar = true) :
    json.AllScalars property ↔ property json := by
  cases json with
  | array | object => contradiction
  | null | bool | int | float | string => exact List.forall_mem_singleton

@[simp] theorem allScalars_array (items : List Json) :
    AllScalars property (array items) ↔ ∀ item ∈ items, item.AllScalars property := by
  rw [AllScalars, scalars, scalarsOfItems_eq]
  exact List.forall_mem_flatMap

@[simp] theorem allScalars_object (fields : List (String × Json)) :
    AllScalars property (object fields) ↔ ∀ field ∈ fields, field.2.AllScalars property := by
  rw [AllScalars, scalars, scalarsOfFields_eq]
  exact List.forall_mem_flatMap

@[simp] theorem allScalars_null : AllScalars property null ↔ property null :=
  allScalars_scalar rfl

@[simp] theorem allScalars_bool (value : Bool) : AllScalars property (bool value) ↔ property (bool value) :=
  allScalars_scalar rfl

@[simp] theorem allScalars_int (n : ℤ) : AllScalars property (int n) ↔ property (int n) :=
  allScalars_scalar rfl

@[simp] theorem allScalars_float (x : Float) : AllScalars property (float x) ↔ property (float x) :=
  allScalars_scalar rfl

@[simp] theorem allScalars_string (text : String) : AllScalars property (string text) ↔ property (string text) :=
  allScalars_scalar rfl

end AllScalars

/-- A whole number has 64 bits. -/
def Fits (json : Json) : Prop :=
  ∀ n, json = .int n → Is64Bit n

@[simp] theorem fits_int (n : ℤ) : (int n).Fits ↔ Is64Bit n := by
  simp [Fits]

@[simp] theorem fits_null : null.Fits := nofun

@[simp] theorem fits_bool (value : Bool) : (bool value).Fits := nofun

@[simp] theorem fits_float (x : Float) : (float x).Fits := nofun

@[simp] theorem fits_string (text : String) : (string text).Fits := nofun

/-- A double is finite. -/
def IsFinite (json : Json) : Prop :=
  ∀ x, json = .float x → x.isFinite = true

/-- Values with finite doubles only stand in a text as they are. -/
theorem written_of_finite (json : Json) (finite : json.AllScalars IsFinite) : json.written = json := by
  induction json using induction with
  | scalar json isScalar =>
    cases json with
    | float x => exact if_pos ((allScalars_float x).mp finite x rfl)
    | null | bool | int | string => rfl
    | array | object => contradiction
  | array items inductionHypothesis =>
    rw [written, writtenItems_eq, List.map_congr_left, List.map_id']
    intro item member
    exact inductionHypothesis item member ((allScalars_array items).mp finite item member)
  | object fields inductionHypothesis =>
    rw [written, writtenFields_eq, List.map_congr_left, List.map_id']
    intro field member
    exact Prod.ext (by rfl) (inductionHypothesis field member ((allScalars_object fields).mp finite field member))

/-! ### Shapes -/

/-- A shape asks for every field of a value. -/
inductive Covers : Shape → Json → Prop where
  | any (json : Json) : Covers .any json
  | list {shape : Shape} {items : List Json} (all : ∀ item ∈ items, Covers shape item) :
      Covers (.list shape) (.array items)
  | record {names : List (String × Shape)} {fields : List (String × Json)}
      (asked : ∀ field ∈ fields, ((Shape.record names).field? field.1).isSome = true)
      (all : ∀ field ∈ fields, ∀ shape, (Shape.record names).field? field.1 = some shape → Covers shape field.2) :
      Covers (.record names) (.object fields)

attribute [simp] Covers.any

@[simp] theorem covers_list {shape : Shape} {items : List Json} :
    Covers (.list shape) (.array items) ↔ ∀ item ∈ items, Covers shape item := by
  constructor
  · intro covers
    cases covers
    assumption
  · exact .list

@[simp] theorem covers_record {names : List (String × Shape)} {fields : List (String × Json)} :
    Covers (.record names) (.object fields) ↔
      ∀ field ∈ fields, ∃ shape, (Shape.record names).field? field.1 = some shape ∧ Covers shape field.2 := by
  constructor
  · rintro (_ | _ | ⟨asked, all⟩) field member
    obtain ⟨inner, isAsked⟩ := Option.isSome_iff_exists.mp (asked field member)
    exact ⟨inner, isAsked, all field member inner isAsked⟩
  · intro all
    apply Covers.record
    · intro field member
      obtain ⟨inner, isAsked, _⟩ := all field member
      exact Option.isSome_iff_exists.mpr ⟨inner, isAsked⟩
    · intro field member shape isShape
      obtain ⟨inner, isAsked, covers⟩ := all field member
      rwa [Option.some.inj (isShape.symm.trans isAsked)]

theorem Covers.item {shape : Shape} {items : List Json} (covers : Covers shape (.array items)) {item : Json}
    (member : item ∈ items) (position : ℕ) : Covers (shape.item position) item := by
  cases covers with
  | any => exact .any item
  | list all => exact all item member

theorem Covers.field {shape : Shape} {fields : List (String × Json)} (covers : Covers shape (.object fields))
    {field : String × Json} (member : field ∈ fields) :
    ∃ inner, shape.field? field.1 = some inner ∧ Covers inner field.2 := by
  cases shape with
  | any => exact ⟨.any, rfl, .any field.2⟩
  | list => contradiction
  | record names => exact covers_record.mp covers field member

/-! ### Containers, one step at a time -/

section Steps

variable {reading inner : Reading} {chars tail rest : List Char} {position : ℕ}

/-- A container that is nested too deeply is refused at its bracket. -/
theorem taken_value_refused {head : Char} (isBracket : head = '[' ∨ head = '\x7b')
    (starts : skipSpaces chars = head :: tail) (refused : reading.enter? = none) :
    taken (value reading chars) = none := by
  rw [value]
  split
  · rfl
  · next first others isCons =>
    obtain ⟨rfl, rfl⟩ := List.cons.inj (isCons.symm.trans starts)
    rcases isBracket with rfl | rfl
    all_goals
      simp only [Char.reduceEq, if_true, if_false]
      split
      · rfl
      · next isInner => rw [refused] at isInner; contradiction

theorem taken_value_emptyArray (starts : skipSpaces chars = '[' :: tail) (enters : reading.enter? = some inner)
    (empty : skipSpaces tail = ']' :: rest) : taken (value reading chars) = some (.array [], rest) := by
  rw [value]
  split
  · next none => rw [none] at starts; contradiction
  · next first others isCons =>
    obtain ⟨rfl, rfl⟩ := List.cons.inj (isCons.symm.trans starts)
    simp only [Char.reduceEq, if_true, if_false]
    split
    · next refused => rw [refused] at enters; contradiction
    · split
      · next closed =>
        obtain ⟨-, rfl⟩ := List.cons.inj (closed.symm.trans empty)
        rfl
      · next notClosed => exact absurd empty (notClosed rest)

theorem taken_value_array (starts : skipSpaces chars = '[' :: tail) (enters : reading.enter? = some inner)
    (nonempty : ∀ rest, skipSpaces tail ≠ ']' :: rest) :
    taken (value reading chars) = (taken (items inner 0 tail)).map fun (values, rest) => (.array values, rest) := by
  rw [value]
  split
  · next none => rw [none] at starts; contradiction
  · next first others isCons =>
    obtain ⟨rfl, rfl⟩ := List.cons.inj (isCons.symm.trans starts)
    simp only [Char.reduceEq, if_true, if_false]
    split
    · next refused => rw [refused] at enters; contradiction
    · next entered isInner =>
      obtain rfl := Option.some.inj (isInner.symm.trans enters)
      split
      · next isRead => rw [isRead]; rfl
      · next failed => rw [failed]; rfl

theorem taken_value_emptyObject (starts : skipSpaces chars = '\x7b' :: tail) (enters : reading.enter? = some inner)
    (empty : skipSpaces tail = '\x7d' :: rest) : taken (value reading chars) = some (.object [], rest) := by
  rw [value]
  split
  · next none => rw [none] at starts; contradiction
  · next first others isCons =>
    obtain ⟨rfl, rfl⟩ := List.cons.inj (isCons.symm.trans starts)
    simp only [Char.reduceEq, if_true, if_false]
    split
    · next refused => rw [refused] at enters; contradiction
    · split
      · next closed =>
        obtain ⟨-, rfl⟩ := List.cons.inj (closed.symm.trans empty)
        rfl
      · next notClosed => exact absurd empty (notClosed rest)

theorem taken_value_object (starts : skipSpaces chars = '\x7b' :: tail) (enters : reading.enter? = some inner)
    (nonempty : ∀ rest, skipSpaces tail ≠ '\x7d' :: rest) :
    taken (value reading chars) = (taken (fields inner tail)).map fun (values, rest) => (.object values, rest) := by
  rw [value]
  split
  · next none => rw [none] at starts; contradiction
  · next first others isCons =>
    obtain ⟨rfl, rfl⟩ := List.cons.inj (isCons.symm.trans starts)
    simp only [Char.reduceEq, if_true, if_false]
    split
    · next refused => rw [refused] at enters; contradiction
    · next entered isInner =>
      obtain rfl := Option.some.inj (isInner.symm.trans enters)
      split
      · next isRead => rw [isRead]; rfl
      · next failed => rw [failed]; rfl

/-- What is taken of an array from an item on, by what stands behind the item. -/
def behindItem (reading : Reading) (position : ℕ) (item : Json) : List Char → Option (List Json × List Char)
  | ']' :: rest => some ([item], rest)
  | ',' :: tail => (taken (items reading (position + 1) tail)).map fun (others, rest) => (item :: others, rest)
  | _ => none

theorem taken_items : taken (items reading position chars) =
    (taken (value (reading.item position) chars)).bind fun (item, rest) =>
      behindItem reading position item (skipSpaces rest) := by
  rw [items]
  split
  · next failed => rw [failed]; rfl
  · next item afterItem shorter isItem =>
    rw [isItem]
    have sameBehind : ∀ token, skipSpaces afterItem = token →
        behindItem reading position item token = behindItem reading position item (skipSpaces afterItem) :=
      fun _ same => by rw [same]
    split
    · next nothing => exact sameBehind _ nothing
    · next mark behind isCons =>
      apply Eq.trans _ (sameBehind _ isCons)
      split_ifs with closed comma
      · subst closed
        rfl
      · subst comma
        split
        · next isRead => simp only [behindItem, isRead]; rfl
        · next failed => simp only [behindItem, failed]; rfl
      · unfold behindItem
        split
        · next isClosed => exact absurd (List.cons.inj isClosed).1 closed
        · next isComma => exact absurd (List.cons.inj isComma).1 comma
        · rfl

/-- The characters start with a key, in front of the characters of its value. -/
def Keyed (chars : List Char) (name : String) (valueChars : List Char) : Prop :=
  ∃ keyChars afterKey, skipSpaces chars = '"' :: keyChars ∧
    taken (stringTail false keyChars) = some (name.toList, afterKey) ∧ skipSpaces afterKey = ':' :: valueChars

/-- What is taken of an object from a field on, by what stands behind the field. -/
def behindField (reading : Reading) (name : String) (first : Json) :
    List Char → Option (List (String × Json) × List Char)
  | '\x7d' :: rest => some ([(name, first)], rest)
  | ',' :: tail => (taken (fields reading tail)).map fun (others, rest) => ((name, first) :: others, rest)
  | _ => none

theorem taken_fields {name : String} {valueChars : List Char} (keyed : Keyed chars name valueChars)
    (notSkim : reading.isSkim = false) (kept : (reading.field name).isSkim = false) :
    taken (fields reading chars) = (taken (value (reading.field name) valueChars)).bind fun (first, rest) =>
      behindField reading name first (skipSpaces rest) := by
  obtain ⟨keyChars, afterKey, starts, isKey, colon⟩ := keyed
  rw [fields]
  split
  · next behindQuote isQuote =>
    obtain ⟨-, rfl⟩ := List.cons.inj (isQuote.symm.trans starts)
    rw [notSkim]
    split
    · next failed => rw [failed] at isKey; contradiction
    · next key behindKey shorterKey readKey =>
      rw [readKey] at isKey
      obtain ⟨rfl, rfl⟩ := Prod.mk.inj (Option.some.inj isKey)
      split
      · next others isColon =>
        obtain ⟨-, rfl⟩ := List.cons.inj (isColon.symm.trans colon)
        simp only [String.ofList_toList]
        split
        · next failed => rw [failed]; rfl
        · next first afterFirst shorter isFirst =>
          rw [isFirst, kept]
          simp only [Bool.false_eq_true, if_false]
          have sameBehind : ∀ token, skipSpaces afterFirst = token →
              behindField reading name first token = behindField reading name first (skipSpaces afterFirst) :=
            fun _ same => by rw [same]
          split
          · next nothing => exact sameBehind _ nothing
          · next mark behind isCons =>
            apply Eq.trans _ (sameBehind _ isCons)
            split_ifs with closed comma
            · subst closed
              rfl
            · subst comma
              split
              · next isRead => simp only [behindField, isRead]; rfl
              · next failed => simp only [behindField, failed]; rfl
            · unfold behindField
              split
              · next isClosed => exact absurd (List.cons.inj isClosed).1 closed
              · next isComma => exact absurd (List.cons.inj isComma).1 comma
              · rfl
      · next noColon => exact absurd colon (noColon _)
  · next noQuote => exact absurd starts (noQuote _)

end Steps

/-! ### Pretty texts -/

theorem skipSpaces_token {c : Char} (isToken : isSpace c = false) (chars : List Char) :
    skipSpaces (c :: chars) = c :: chars := by
  simp [skipSpaces, isToken]

theorem skipSpaces_newline (n : ℕ) (chars : List Char) : skipSpaces (newline n ++ chars) = skipSpaces chars := by
  have blanks : ∀ c ∈ newline n, isSpace c = true := by
    intro c member
    rcases List.mem_cons.mp member with rfl | indent
    · decide
    · rw [List.eq_of_mem_replicate indent]
      decide
  exact List.dropWhile_append_of_pos blanks

theorem scalar_head {json : Json} (isScalar : json.isScalar = true) :
    ∃ head tail, scalarChars json = head :: tail ∧ isSpace head = false ∧ head ≠ ']' := by
  have ofNumber : ∀ head : Char, head = '-' ∨ head.isDigit = true → isSpace head = false ∧ head ≠ ']' := by
    intro head isHead
    refine ⟨?_, by rintro rfl; revert isHead; decide⟩
    rw [Bool.eq_false_iff]
    intro blank
    simp only [isSpace, Bool.or_eq_true, decide_eq_true_eq] at blank
    rcases blank with ((rfl | rfl) | rfl) | rfl <;> revert isHead <;> decide
  cases json with
  | null => exact ⟨'n', _, rfl, by decide⟩
  | bool value => cases value <;> exact ⟨_, _, rfl, by decide⟩
  | int n =>
    obtain ⟨strict, isChars⟩ := intChars_numeral n
    obtain ⟨head, tail, isCons, isHead⟩ := signed_head (n < 0) strict
    exact ⟨head, tail, isChars.trans isCons, ofNumber head isHead⟩
  | float x =>
    show ∃ head tail, Number.documentChars x = head :: tail ∧ _
    unfold Number.documentChars
    split
    · next finite =>
      obtain ⟨numeral, layout⟩ := Number.documentMagnitude_layout finite
      obtain ⟨head, tail, isCons, isHead⟩ := signed_head (Number.isNegative x) layout.strict
      exact ⟨head, tail, layout.written ▸ isCons, ofNumber head isHead⟩
    · exact ⟨'n', _, rfl, by decide⟩
  | string text => exact ⟨'"', _, rfl, by decide⟩
  | array | object => cases isScalar

/-- A pretty text starts with a token that closes nothing. -/
theorem pretty_head (n : ℕ) (json : Json) :
    ∃ head tail, prettyChars n json = head :: tail ∧ isSpace head = false ∧ head ≠ ']' := by
  cases json with
  | array items => cases items <;> exact ⟨'[', _, rfl, by decide⟩
  | object fields => cases fields <;> exact ⟨'\x7b', _, rfl, by decide⟩
  | null | bool | int | float | string => exact scalar_head rfl

theorem skipSpaces_pretty (n : ℕ) (json : Json) (rest : List Char) :
    skipSpaces (prettyChars n json ++ rest) = prettyChars n json ++ rest := by
  obtain ⟨head, tail, isCons, isToken, _⟩ := pretty_head n json
  rw [isCons]
  exact skipSpaces_token isToken _

theorem taken_value_scalar {json : Json} {depth : ℕ} {shape : Shape} {chars rest : List Char}
    (isScalar : json.isScalar = true) (fits : json.Fits) (ends : Ends continuesNumber rest)
    (starts : skipSpaces chars = scalarChars json ++ rest) :
    taken (value (.keep depth shape) chars) = some (json.written, rest) := by
  have ofNull : skipSpaces chars = scalarChars null ++ rest →
      taken (value (.keep depth shape) chars) = some (null, rest) :=
    @taken_value_word _ _ _ 'n' ['u', 'l', 'l'] null (by simp)
  cases json with
  | null => exact ofNull starts
  | bool value =>
    cases value with
    | true => exact @taken_value_word _ _ _ 't' ['r', 'u', 'e'] (bool true) (by simp) starts
    | false => exact @taken_value_word _ _ _ 'f' ['a', 'l', 's', 'e'] (bool false) (by simp) starts
  | int n =>
    obtain ⟨strict, isChars⟩ := intChars_numeral n
    obtain ⟨head, tail, isCons, isHead⟩ := signed_head (n < 0) strict
    have isNumber := number_intChars (fits n rfl) ends
    have first : intChars n ++ rest = head :: (tail ++ rest) := by rw [isChars, isCons]; rfl
    rw [first] at isNumber
    exact taken_value_number rfl (starts.trans first) isHead isNumber
  | float x =>
    rw [written]
    split
    · next finite =>
      obtain ⟨numeral, layout⟩ := Number.documentMagnitude_layout finite
      obtain ⟨head, tail, isCons, isHead⟩ := signed_head (Number.isNegative x) layout.strict
      have isNumber := number_documentChars finite ends
      have first : Number.documentChars x ++ rest = head :: (tail ++ rest) := by
        rw [Number.documentChars, if_pos finite, ← layout.written, isCons]
        rfl
      rw [first] at isNumber
      exact taken_value_number rfl (starts.trans first) isHead isNumber
    · next notFinite =>
      rw [scalarChars, Number.documentChars, if_neg notFinite] at starts
      exact ofNull starts
  | string text =>
    have isText := taken_stringTail text.toList rest
    have opened : skipSpaces chars = '"' :: (text.toList.flatMap escapedChar ++ '"' :: rest) := by
      rw [starts]
      simp [scalarChars, stringChars]
    have isString := @taken_value_string (.keep depth shape) _ _ _ _ rfl opened isText
    rw [String.ofList_toList] at isString
    exact isString
  | array | object => contradiction

/-- The pretty text of a value is read, under a shape, as what stands in it for the value, if containers are not nested
too deeply. -/
def ReadsBack (shape : Shape) (json : Json) : Prop :=
  ∀ {depth n : ℕ} {chars rest : List Char}, Ends continuesNumber rest →
    skipSpaces chars = prettyChars n json ++ rest →
    taken (value (.keep depth shape) chars) = if json.height ≤ depth then some (json.written, rest) else none

theorem scalar_readsBack {json : Json} {shape : Shape} (isScalar : json.isScalar = true)
    (fits : json.Fits) : ReadsBack shape json := by
  intro depth n chars rest ends starts
  have flat : json.height = 0 ∧ prettyChars n json = scalarChars json := by
    cases json with
    | array | object => contradiction
    | null | bool | int | float | string => exact ⟨rfl, rfl⟩
  rw [flat.2] at starts
  rw [flat.1, if_pos (Nat.zero_le depth)]
  exact taken_value_scalar isScalar fits ends starts

section Containers

variable {depth n m position : ℕ} {shape : Shape} {chars rest : List Char}

theorem ends_prettyItems (items : List Json) {closing : Char} :
    Ends continuesNumber (prettyItems n items ++ (newline m ++ closing :: rest)) := by
  cases items <;> exact (ends_cons ..).mpr (by decide)

theorem ends_prettyFields (fields : List (String × Json)) {closing : Char} :
    Ends continuesNumber (prettyFields n fields ++ (newline m ++ closing :: rest)) := by
  cases fields <;> exact (ends_cons ..).mpr (by decide)

theorem taken_first_item {first : Json} {behind : List Char} (readsBack : ReadsBack (shape.item position) first)
    (ends : Ends continuesNumber behind) (starts : skipSpaces chars = prettyChars n first ++ behind) :
    taken (items (.keep depth shape) position chars) =
      if first.height ≤ depth then behindItem (.keep depth shape) position first.written (skipSpaces behind)
      else none := by
  rw [taken_items]
  show (taken (value (.keep depth (shape.item position)) chars)).bind _ = _
  rw [readsBack ends starts]
  split <;> rfl

/-- The items of an array are read one after another, up to the bracket. -/
theorem taken_items_pretty {first : Json} {others : List Json}
    (readsBack : ∀ item ∈ first :: others, ∀ position, ReadsBack (shape.item position) item)
    (starts : skipSpaces chars = prettyChars n first ++ (prettyItems n others ++ (newline m ++ ']' :: rest))) :
    taken (items (.keep depth shape) position chars) =
      if heightOfItems (first :: others) ≤ depth then some (writtenItems (first :: others), rest) else none := by
  induction others generalizing first position chars with
  | nil =>
    have closes : skipSpaces (prettyItems n [] ++ (newline m ++ ']' :: rest)) = ']' :: rest :=
      (skipSpaces_newline m _).trans (skipSpaces_token (by decide) rest)
    rw [taken_first_item (readsBack _ List.mem_cons_self position) (ends_prettyItems []) starts, closes]
    simp [heightOfItems, writtenItems, behindItem]
  | cons second others inductionHypothesis =>
    have comma : skipSpaces (prettyItems n (second :: others) ++ (newline m ++ ']' :: rest)) = ',' :: (newline n ++
        (prettyChars n second ++ (prettyItems n others ++ (newline m ++ ']' :: rest)))) := by
      simp [prettyItems, skipSpaces_token (show isSpace ',' = false by decide)]
    have behindComma := (skipSpaces_newline n _).trans
      (skipSpaces_pretty n second (prettyItems n others ++ (newline m ++ ']' :: rest)))
    have isRest := @inductionHypothesis (position + 1) _ second
      (fun item member => readsBack item (List.mem_cons_of_mem _ member)) behindComma
    rw [taken_first_item (readsBack _ List.mem_cons_self position) (ends_prettyItems _) starts, comma]
    simp only [behindItem, isRest, @heightOfItems_cons_le first]
    by_cases shallow : first.height ≤ depth
    · simp only [shallow, true_and, if_true]
      split <;> rfl
    · simp only [shallow, false_and, if_false]

theorem keyed_pretty {name : String} {behind : List Char}
    (starts : skipSpaces chars = stringChars name ++ ':' :: ' ' :: behind) : Keyed chars name (' ' :: behind) := by
  refine ⟨name.toList.flatMap escapedChar ++ '"' :: ':' :: ' ' :: behind, _, ?_, taken_stringTail _ _, ?_⟩
  · rw [starts]
    simp [stringChars]
  · exact skipSpaces_token (by decide) _

/-- The value of a field is read behind its key. -/
theorem taken_first_field {name : String} {first : Json} {behind : List Char}
    (readsBack : ∃ inner, shape.field? name = some inner ∧ ReadsBack inner first) (ends : Ends continuesNumber behind)
    (starts : skipSpaces chars = stringChars name ++ ':' :: ' ' :: (prettyChars n first ++ behind)) :
    taken (fields (.keep depth shape) chars) =
      if first.height ≤ depth then behindField (.keep depth shape) name first.written (skipSpaces behind)
      else none := by
  obtain ⟨inner, isAsked, isFirst⟩ := readsBack
  have kept : (Reading.keep depth shape).field name = .keep depth inner := by
    simp only [Reading.field, isAsked]
  have behindBlank : skipSpaces (' ' :: (prettyChars n first ++ behind)) = prettyChars n first ++ behind :=
    skipSpaces_pretty n first behind
  rw [taken_fields (keyed_pretty starts) rfl (by rw [kept]; rfl), kept, isFirst ends behindBlank]
  split <;> rfl

/-- The fields of an object are read one after another, up to the brace. -/
theorem taken_fields_pretty {name : String} {first : Json} {others : List (String × Json)}
    (readsBack : ∀ field ∈ (name, first) :: others,
      ∃ inner, shape.field? field.1 = some inner ∧ ReadsBack inner field.2)
    (starts : skipSpaces chars = stringChars name ++ ':' :: ' ' :: (prettyChars n first ++
      (prettyFields n others ++ (newline m ++ '\x7d' :: rest)))) :
    taken (fields (.keep depth shape) chars) =
      if heightOfFields ((name, first) :: others) ≤ depth then some (writtenFields ((name, first) :: others), rest)
      else none := by
  induction others generalizing name first chars with
  | nil =>
    have closes : skipSpaces (prettyFields n [] ++ (newline m ++ '\x7d' :: rest)) = '\x7d' :: rest :=
      (skipSpaces_newline m _).trans (skipSpaces_token (by decide) rest)
    rw [taken_first_field (readsBack _ List.mem_cons_self) (ends_prettyFields []) starts, closes]
    simp [heightOfFields, writtenFields, behindField]
  | cons second others inductionHypothesis =>
    obtain ⟨secondName, secondValue⟩ := second
    have comma : skipSpaces (prettyFields n ((secondName, secondValue) :: others) ++ (newline m ++ '\x7d' :: rest)) =
        ',' :: (newline n ++ (stringChars secondName ++ ':' :: ' ' :: (prettyChars n secondValue ++
          (prettyFields n others ++ (newline m ++ '\x7d' :: rest))))) := by
      simp [prettyFields, skipSpaces_token (show isSpace ',' = false by decide)]
    have behindComma := (skipSpaces_newline n (stringChars secondName ++ ':' :: ' ' :: (prettyChars n secondValue ++
      (prettyFields n others ++ (newline m ++ '\x7d' :: rest))))).trans (skipSpaces_token (by decide) _)
    have isRest := inductionHypothesis (fun field member => readsBack field (List.mem_cons_of_mem _ member)) behindComma
    rw [taken_first_field (readsBack _ List.mem_cons_self) (ends_prettyFields _) starts, comma]
    simp only [behindField, isRest, @heightOfFields_cons_le name first]
    by_cases shallow : first.height ≤ depth
    · simp only [shallow, true_and, if_true]
      split <;> rfl
    · simp only [shallow, false_and, if_false]

theorem array_readsBack {items : List Json}
    (readsBack : ∀ item ∈ items, ∀ position, ReadsBack (shape.item position) item) :
    ReadsBack shape (.array items) := by
  intro depth n chars rest _ starts
  cases items with
  | nil =>
    cases depth with
    | zero => exact taken_value_refused (.inl rfl) starts rfl
    | succ depth => exact taken_value_emptyArray starts rfl (skipSpaces_token (by decide) rest)
  | cons first others =>
    have opened : skipSpaces chars = '[' :: (newline (n + 1) ++ (prettyChars (n + 1) first ++
        (prettyItems (n + 1) others ++ (newline n ++ ']' :: rest)))) := by
      rw [starts]
      simp [prettyChars]
    have behind := (skipSpaces_newline (n + 1) _).trans
      (skipSpaces_pretty (n + 1) first (prettyItems (n + 1) others ++ (newline n ++ ']' :: rest)))
    cases depth with
    | zero => exact taken_value_refused (.inl rfl) opened rfl
    | succ depth =>
      have nonempty : ∀ rest', skipSpaces (newline (n + 1) ++ (prettyChars (n + 1) first ++
          (prettyItems (n + 1) others ++ (newline n ++ ']' :: rest)))) ≠ ']' :: rest' := by
        intro rest' closed
        obtain ⟨head, tail, isCons, -, notClosing⟩ := pretty_head (n + 1) first
        rw [behind, isCons] at closed
        exact notClosing (List.cons.inj closed).1
      rw [taken_value_array opened rfl nonempty, taken_items_pretty readsBack behind]
      simp only [height, written, Nat.add_le_add_iff_right]
      split <;> rfl

theorem object_readsBack {fields : List (String × Json)}
    (readsBack : ∀ field ∈ fields, ∃ inner, shape.field? field.1 = some inner ∧ ReadsBack inner field.2) :
    ReadsBack shape (.object fields) := by
  intro depth n chars rest _ starts
  cases fields with
  | nil =>
    cases depth with
    | zero => exact taken_value_refused (.inr rfl) starts rfl
    | succ depth => exact taken_value_emptyObject starts rfl (skipSpaces_token (by decide) rest)
  | cons field others =>
    obtain ⟨name, first⟩ := field
    have opened : skipSpaces chars = '\x7b' :: (newline (n + 1) ++ (stringChars name ++ ':' :: ' ' ::
        (prettyChars (n + 1) first ++ (prettyFields (n + 1) others ++ (newline n ++ '\x7d' :: rest))))) := by
      rw [starts]
      simp [prettyChars]
    have behind := (skipSpaces_newline (n + 1) (stringChars name ++ ':' :: ' ' :: (prettyChars (n + 1) first ++
      (prettyFields (n + 1) others ++ (newline n ++ '\x7d' :: rest))))).trans (skipSpaces_token (by decide) _)
    cases depth with
    | zero => exact taken_value_refused (.inr rfl) opened rfl
    | succ depth =>
      have nonempty : ∀ rest', skipSpaces (newline (n + 1) ++ (stringChars name ++ ':' :: ' ' ::
          (prettyChars (n + 1) first ++ (prettyFields (n + 1) others ++ (newline n ++ '\x7d' :: rest))))) ≠
          '\x7d' :: rest' := by
        intro rest' closed
        rw [behind] at closed
        exact absurd (List.cons.inj closed).1 (by decide)
      rw [taken_value_object opened rfl nonempty, taken_fields_pretty readsBack behind]
      simp only [height, written, Nat.add_le_add_iff_right]
      split <;> rfl

end Containers

/-- Whatever a value is, its pretty text is read back under every shape that asks for all of it. -/
theorem readsBack_of_covers (json : Json) {shape : Shape} (covers : Covers shape json) (fits : json.AllScalars Fits) :
    ReadsBack shape json := by
  induction json using induction generalizing shape with
  | scalar json isScalar =>
    exact scalar_readsBack isScalar ((allScalars_scalar isScalar).mp fits)
  | array items inductionHypothesis =>
    apply array_readsBack
    intro item member position
    exact inductionHypothesis item member (covers.item member position) ((allScalars_array items).mp fits item member)
  | object fields inductionHypothesis =>
    apply object_readsBack
    intro field member
    obtain ⟨inner, isAsked, coversField⟩ := covers.field member
    have fitsField := (allScalars_object fields).mp fits field member
    exact ⟨inner, isAsked, inductionHypothesis field member coversField fitsField⟩

/-- The pretty text of a value is read as what stands in it for the value, if containers are nested within the limit,
and refused otherwise. -/
theorem readAs_pretty {json : Json} {depth : ℕ} {shape : Shape} (covers : Covers shape json)
    (fits : json.AllScalars Fits) :
    (readAs (.keep depth shape) json.pretty).toOption = if json.height ≤ depth then some json.written else none := by
  have isChars : json.pretty.toList = prettyChars 0 json := String.toList_ofList
  have starts : skipSpaces (prettyChars 0 json) = prettyChars 0 json ++ [] := by
    have same := skipSpaces_pretty 0 json []
    rwa [List.append_nil] at same ⊢
  have isRead := @readsBack_of_covers json shape covers fits depth 0 _ _ (Text.ends_nil _) starts
  rw [readAs, isChars]
  split
  · next failed =>
    rw [failed] at isRead
    split at isRead
    · contradiction
    · next deep => rw [if_neg deep]; rfl
  · next meaning rest _ isOk =>
    rw [isOk] at isRead
    split at isRead
    · next shallow =>
      obtain ⟨rfl, rfl⟩ := Prod.mk.inj (Option.some.inj isRead)
      rw [if_pos shallow]
      rfl
    · contradiction

end TradingStrategy.Json

import Mathlib.Data.String.Basic
import TradingStrategy.Proofs.Json.Recovery
import TradingStrategy.Proofs.Outcome

/-!
What is read of a text.

Owns:
- `read_admitted`: the whole numbers that are read have 64 bits, the doubles are finite and the containers are nested
  within the limit;
- `IsOrdered`, `canonical_ordered`, `IsOrdered.canonical`: what the canonical form of a value is, and that it is its own
  canonical form;
- `readCanonical_freeForm`: a value that is read in canonical form is of free form, and so are the parts of it;
- `readCanonical_pretty`: the canonical form of a value is read from its pretty text.
-/

namespace TradingStrategy.Json

/-! ### Scalars -/

/-- A scalar can be held: a whole number in 64 bits, a double that is finite. -/
def IsHoldable (json : Json) : Prop :=
  json.Fits ∧ json.IsFinite

theorem numberValue_holdable {negative : Bool} {whole : List Char} {fraction : Option (List Char)} {exponent : Option ℤ}
    {json : Json} (isValue : numberValue negative whole fraction exponent = some json) :
    json.isScalar = true ∧ json.IsHoldable := by
  have ofWhole : ∀ n : ℤ, Is64Bit n → some (int n) = some json → json.isScalar = true ∧ json.IsHoldable := by
    rintro n fits ⟨rfl⟩
    exact ⟨rfl, (fits_int n).mpr fits, nofun⟩
  have ofDouble : ∀ x : Float, x.isFinite = true → some (float x) = some json →
      json.isScalar = true ∧ json.IsHoldable := by
    rintro x finite ⟨rfl⟩
    exact ⟨rfl, nofun, fun y same => float.inj same ▸ finite⟩
  unfold numberValue at isValue
  cases negative with
  | true =>
    simp only [if_true] at isValue
    split_ifs at isValue with isWhole finite
    · exact ofWhole _ isWhole.2 isValue
    · exact ofDouble _ (Number.neg_finite finite) isValue
  | false =>
    simp only [Bool.false_eq_true, if_false] at isValue
    split_ifs at isValue with isWhole finite
    · exact ofWhole _ isWhole.2 isValue
    · exact ofDouble _ finite isValue

theorem unsignedNumber_holdable {skimmed negative : Bool} {chars rest : List Char} {json : Json}
    (isRead : unsignedNumber skimmed negative chars = .ok (json, rest)) : json.isScalar = true ∧ json.IsHoldable := by
  obtain ⟨⟨whole, afterWhole⟩, _, isRead⟩ := bind_eq_ok isRead
  obtain ⟨⟨fraction, afterFraction⟩, _, isRead⟩ := bind_eq_ok isRead
  obtain ⟨⟨exponent, afterExponent⟩, _, isRead⟩ := bind_eq_ok isRead
  simp only at isRead
  split_ifs at isRead
  · obtain ⟨rfl, -⟩ := Prod.mk.inj (Except.ok.inj isRead)
    exact ⟨rfl, nofun, nofun⟩
  · split at isRead
    · next isValue =>
      obtain ⟨rfl, -⟩ := Prod.mk.inj (Except.ok.inj isRead)
      exact numberValue_holdable isValue
    · contradiction

theorem number_holdable {skimmed : Bool} {chars rest : List Char} {json : Json}
    (isRead : number skimmed chars = .ok (json, rest)) : json.isScalar = true ∧ json.IsHoldable := by
  unfold number at isRead
  split at isRead
  · exact unsignedNumber_holdable isRead
  · exact unsignedNumber_holdable isRead

/-! ### Values -/

/-- What a reading can answer: scalars that can be held, in no more containers than it may enter. -/
structure Reading.Admits (reading : Reading) (json : Json) : Prop where
  scalars : json.AllScalars IsHoldable
  height : ∀ depth shape, reading = keep depth shape → json.height ≤ depth

section Admits

variable {reading inner : Reading} {json : Json}

theorem admits_scalar (isScalar : json.isScalar = true) (holdable : json.IsHoldable) : reading.Admits json := by
  refine ⟨(allScalars_scalar isScalar).mpr holdable, fun depth _ _ => ?_⟩
  cases json with
  | array | object => contradiction
  | null | bool | int | float | string => exact depth.zero_le

theorem enter_keep {depth : ℕ} {shape : Shape} (entered : (Reading.keep depth shape).enter? = some inner) :
    ∃ below, depth = below + 1 ∧ inner = .keep below shape := by
  cases depth with
  | zero => contradiction
  | succ below => exact ⟨below, rfl, (Option.some.inj entered).symm⟩

theorem admits_array {items : List Json} (entered : reading.enter? = some inner)
    (each : ∀ item ∈ items, inner.Admits item) : reading.Admits (.array items) := by
  refine ⟨(allScalars_array items).mpr fun item member => (each item member).scalars, ?_⟩
  rintro depth shape rfl
  obtain ⟨below, rfl, rfl⟩ := enter_keep entered
  exact Nat.succ_le_succ (heightOfItems_le_iff.mpr fun item member => (each item member).height below shape rfl)

theorem admits_object {fields : List (String × Json)} (entered : reading.enter? = some inner)
    (each : ∀ field ∈ fields, inner.Admits field.2) : reading.Admits (.object fields) := by
  refine ⟨(allScalars_object fields).mpr fun field member => (each field member).scalars, ?_⟩
  rintro depth shape rfl
  obtain ⟨below, rfl, rfl⟩ := enter_keep entered
  exact Nat.succ_le_succ (heightOfFields_le_iff.mpr fun field member => (each field member).height below shape rfl)

theorem Reading.Admits.ofItem {position : ℕ} (admits : (reading.item position).Admits json) :
    reading.Admits json := by
  refine ⟨admits.scalars, ?_⟩
  rintro depth shape rfl
  exact admits.height depth _ rfl

/-- A field that is kept was read with the depth of its object. -/
theorem Reading.Admits.ofField {name : String} (kept : (reading.field name).isSkim = false)
    (admits : (reading.field name).Admits json) : reading.Admits json := by
  refine ⟨admits.scalars, ?_⟩
  rintro depth shape rfl
  cases isField : shape.field? name with
  | none =>
    rw [Reading.field, isField] at kept
    contradiction
  | some inner =>
    have same : (Reading.keep depth shape).field name = .keep depth inner := by rw [Reading.field, isField]
    exact admits.height depth inner same

end Admits

/-- Whatever is read from the start of some characters is admitted. -/
structure ReadsAdmitted (chars : List Char) : Prop where
  value : ∀ {reading json rest}, taken (value reading chars) = some (json, rest) → reading.Admits json
  items : ∀ {reading position values rest}, taken (items reading position chars) = some (values, rest) →
    ∀ item ∈ values, reading.Admits item
  fields : ∀ {reading values rest}, taken (fields reading chars) = some (values, rest) →
    ∀ field ∈ values, reading.Admits field.2

section Steps

variable {chars : List Char} (shorter : ∀ tail : List Char, tail.length < chars.length → ReadsAdmitted tail)

include shorter

theorem value_admitted {reading : Reading} {json : Json} {rest : List Char}
    (isRead : taken (value reading chars) = some (json, rest)) : reading.Admits json := by
  rw [value] at isRead
  split at isRead
  · contradiction
  · next head tail isCons =>
    have behindHead : ReadsAdmitted tail := by
      apply shorter
      have notLonger := skipSpaces_length_le chars
      rw [isCons, List.length_cons] at notLonger
      omega
    simp only at isRead
    split_ifs at isRead
    -- The words.
    iterate 3
      · split at isRead
        · obtain ⟨rfl, -⟩ := Prod.mk.inj (Option.some.inj isRead)
          exact admits_scalar rfl (by simp [IsHoldable, IsFinite])
        · contradiction
    -- A string.
    · split at isRead
      · obtain ⟨rfl, -⟩ := Prod.mk.inj (Option.some.inj isRead)
        exact admits_scalar rfl (by simp [IsHoldable, IsFinite])
      · contradiction
    -- An array.
    · split at isRead
      · contradiction
      · next entered =>
        split at isRead
        · obtain ⟨rfl, -⟩ := Prod.mk.inj (Option.some.inj isRead)
          exact admits_array entered fun _ none => absurd none List.not_mem_nil
        · split at isRead
          · next isItems =>
            obtain ⟨rfl, -⟩ := Prod.mk.inj (Option.some.inj isRead)
            exact admits_array entered (behindHead.items (by rw [isItems]; rfl))
          · contradiction
    -- An object.
    · split at isRead
      · contradiction
      · next entered =>
        split at isRead
        · obtain ⟨rfl, -⟩ := Prod.mk.inj (Option.some.inj isRead)
          exact admits_object entered fun _ none => absurd none List.not_mem_nil
        · split at isRead
          · next isFields =>
            obtain ⟨rfl, -⟩ := Prod.mk.inj (Option.some.inj isRead)
            exact admits_object entered (behindHead.fields (by rw [isFields]; rfl))
          · contradiction
    -- A number.
    · split at isRead
      · next isNumber =>
        obtain ⟨rfl, -⟩ := Prod.mk.inj (Option.some.inj isRead)
        obtain ⟨isScalar, holdable⟩ := number_holdable isNumber
        exact admits_scalar isScalar holdable
      · contradiction
    · contradiction

theorem items_admitted {reading : Reading} {position : ℕ} {values : List Json} {rest : List Char}
    (isRead : taken (items reading position chars) = some (values, rest)) :
    ∀ item ∈ values, reading.Admits item := by
  rw [items] at isRead
  split at isRead
  · contradiction
  · next first afterFirst behind isFirst =>
    have admitted := (value_admitted shorter (by rw [isFirst]; rfl)).ofItem
    split at isRead
    · contradiction
    · next mark tail isCons =>
      simp only at isRead
      split_ifs at isRead
      · obtain ⟨rfl, -⟩ := Prod.mk.inj (Option.some.inj isRead)
        exact List.forall_mem_singleton.mpr admitted
      · split at isRead
        · next others _ _ areOthers =>
          obtain ⟨rfl, -⟩ := Prod.mk.inj (Option.some.inj isRead)
          apply List.forall_mem_cons.mpr ⟨admitted, _⟩
          have notLonger := skipSpaces_length_le afterFirst
          rw [isCons, List.length_cons] at notLonger
          exact (shorter tail (by omega)).items (by rw [areOthers]; rfl)
        · contradiction
      · contradiction

theorem fields_admitted {reading : Reading} {values : List (String × Json)} {rest : List Char}
    (isRead : taken (fields reading chars) = some (values, rest)) :
    ∀ field ∈ values, reading.Admits field.2 := by
  rw [fields] at isRead
  split at isRead
  · next keyChars isQuote =>
    have quoteLess := skipSpaces_length_le chars
    rw [isQuote, List.length_cons] at quoteLess
    split at isRead
    · contradiction
    · next key afterKey keyShorter isKey =>
      split at isRead
      · next valueChars isColon =>
        have colonLess := skipSpaces_length_le afterKey
        rw [isColon, List.length_cons] at colonLess
        simp only at isRead
        split at isRead
        · contradiction
        · next first afterFirst behind isFirst =>
          have admitted := (shorter valueChars (by omega)).value (by rw [isFirst]; rfl)
          have kept : ∀ field ∈ (if (reading.field (String.ofList key)).isSkim then []
              else [(String.ofList key, first)]), reading.Admits field.2 := by
            split
            · exact fun _ none => absurd none List.not_mem_nil
            · next isKept =>
              exact List.forall_mem_singleton.mpr (admitted.ofField (Bool.eq_false_of_not_eq_true isKept))
          split at isRead
          · contradiction
          · next mark tail isCons =>
            split at isRead
            · obtain ⟨rfl, -⟩ := Prod.mk.inj (Option.some.inj isRead)
              exact kept
            · split at isRead
              · split at isRead
                · next others _ _ areOthers =>
                  obtain ⟨rfl, -⟩ := Prod.mk.inj (Option.some.inj isRead)
                  apply List.forall_mem_append.mpr ⟨kept, _⟩
                  have notLonger := skipSpaces_length_le afterFirst
                  rw [isCons, List.length_cons] at notLonger
                  exact (shorter tail (by omega)).fields (by rw [areOthers]; rfl)
                · contradiction
              · contradiction
      · contradiction
  · contradiction

end Steps

theorem readsAdmitted (chars : List Char) : ReadsAdmitted chars :=
  have shorter : ∀ tail : List Char, tail.length < chars.length → ReadsAdmitted tail := fun tail _ => readsAdmitted tail
  ⟨value_admitted shorter, items_admitted shorter, fields_admitted shorter⟩
termination_by chars.length

theorem read_admitted {text : String} {json : Json} (isRead : read text = .ok json) :
    (Reading.keep (depthLimit - 1) .any).Admits json := by
  unfold read readWithin readAs at isRead
  simp only at isRead
  split at isRead
  · contradiction
  · next meaning rest _ isValue =>
    split at isRead
    · obtain rfl := Except.ok.inj isRead
      exact (readsAdmitted text.toList).value (by rw [isValue]; rfl)
    · contradiction

/-! ### Canonical values -/

/-- The fields of every object are in ascending order of their names, each name once. -/
inductive IsOrdered : Json → Prop where
  | scalar {json : Json} (isScalar : json.isScalar = true) : IsOrdered json
  | array {items : List Json} (all : ∀ item ∈ items, IsOrdered item) : IsOrdered (.array items)
  | object {fields : List (String × Json)} (ascending : fields.Pairwise fun first second => first.1 < second.1)
      (all : ∀ field ∈ fields, IsOrdered field.2) : IsOrdered (.object fields)

theorem canonicalItems_eq (items : List Json) : canonicalItems items = items.map canonical := by
  induction items with
  | nil => rfl
  | cons item rest inductionHypothesis => rw [canonicalItems, inductionHypothesis, List.map_cons]

section Fields

variable {field : String × Json} {ordered : List (String × Json)}

theorem mem_insertField {other : String × Json} (among : other ∈ insertField field ordered) :
    other = field ∨ other ∈ ordered := by
  induction ordered with
  | nil => exact .inl (List.mem_singleton.mp among)
  | cons head rest inductionHypothesis =>
    unfold insertField at among
    split at among
    · exact List.mem_cons.mp among
    · split at among
      · exact (List.mem_cons.mp among).imp_right (List.mem_cons_of_mem _)
      · rcases List.mem_cons.mp among with rfl | among
        · exact .inr List.mem_cons_self
        · exact (inductionHypothesis among).imp_right (List.mem_cons_of_mem _)

theorem insertField_ascending (ascending : ordered.Pairwise fun first second => first.1 < second.1) :
    (insertField field ordered).Pairwise fun first second => first.1 < second.1 := by
  induction ordered with
  | nil => exact List.pairwise_singleton ..
  | cons head rest inductionHypothesis =>
    obtain ⟨headFirst, restAscending⟩ := List.pairwise_cons.mp ascending
    unfold insertField
    split
    · next below =>
      apply List.pairwise_cons.mpr ⟨_, ascending⟩
      intro other among
      rcases List.mem_cons.mp among with rfl | among
      · exact below
      · exact below.trans (headFirst other among)
    · next notBelow =>
      split
      · next same =>
        apply List.pairwise_cons.mpr ⟨_, restAscending⟩
        rw [same]
        exact headFirst
      · next different =>
        apply List.pairwise_cons.mpr ⟨_, inductionHypothesis restAscending⟩
        intro other among
        rcases mem_insertField among with rfl | among
        · exact lt_of_le_of_ne (not_lt.mp notBelow) (Ne.symm different)
        · exact headFirst other among

/-- A field whose name is greater than all others goes to the end. -/
theorem insertField_last (greatest : ∀ other ∈ ordered, other.1 < field.1) :
    insertField field ordered = ordered ++ [field] := by
  induction ordered with
  | nil => rfl
  | cons head rest inductionHypothesis =>
    have above := greatest head List.mem_cons_self
    rw [insertField, if_neg above.asymm, if_neg above.ne',
      inductionHypothesis fun other among => greatest other (List.mem_cons_of_mem _ among)]
    rfl

end Fields

theorem mem_canonicalFields {fields ordered : List (String × Json)} {field : String × Json}
    (among : field ∈ canonicalFields fields ordered) :
    field ∈ ordered ∨ ∃ original ∈ fields, field = (original.1, original.2.canonical) := by
  induction fields generalizing ordered with
  | nil => exact .inl among
  | cons first rest inductionHypothesis =>
    rcases inductionHypothesis among with inOrdered | ⟨original, member, isField⟩
    · rcases mem_insertField inOrdered with isFirst | inOrdered
      · exact .inr ⟨first, List.mem_cons_self, isFirst⟩
      · exact .inl inOrdered
    · exact .inr ⟨original, List.mem_cons_of_mem _ member, isField⟩

theorem canonicalFields_ascending {fields ordered : List (String × Json)}
    (ascending : ordered.Pairwise fun first second => first.1 < second.1) :
    (canonicalFields fields ordered).Pairwise fun first second => first.1 < second.1 := by
  induction fields generalizing ordered with
  | nil => exact ascending
  | cons first rest inductionHypothesis => exact inductionHypothesis (insertField_ascending ascending)

theorem canonical_ordered (json : Json) : json.canonical.IsOrdered := by
  induction json using induction with
  | scalar json isScalar =>
    cases json with
    | array | object => contradiction
    | null | bool | int | float | string => exact .scalar rfl
  | array items inductionHypothesis =>
    rw [canonical, canonicalItems_eq]
    exact .array (List.forall_mem_map.mpr inductionHypothesis)
  | object fields inductionHypothesis =>
    apply IsOrdered.object (canonicalFields_ascending List.Pairwise.nil)
    intro field among
    rcases mem_canonicalFields among with inNone | ⟨original, member, rfl⟩
    · contradiction
    · exact inductionHypothesis original member

theorem canonicalFields_of_ascending {fields ordered : List (String × Json)}
    (ascending : (ordered ++ fields).Pairwise fun first second => first.1 < second.1)
    (same : ∀ field ∈ fields, field.2.canonical = field.2) : canonicalFields fields ordered = ordered ++ fields := by
  induction fields generalizing ordered with
  | nil => exact (List.append_nil ordered).symm
  | cons first rest inductionHypothesis =>
    have greatest : ∀ other ∈ ordered, other.1 < first.1 := fun other among =>
      (List.pairwise_append.mp ascending).2.2 other among first List.mem_cons_self
    rw [canonicalFields, same first List.mem_cons_self, insertField_last greatest,
      inductionHypothesis _ fun field member => same field (List.mem_cons_of_mem _ member)]
    · exact List.append_cons .. |>.symm
    · rwa [← List.append_cons]

/-- A value whose objects are in order is its own canonical form. -/
theorem IsOrdered.canonical {json : Json} (isOrdered : json.IsOrdered) : json.canonical = json := by
  induction isOrdered with
  | @scalar json isScalar =>
    cases json with
    | array | object => contradiction
    | null | bool | int | float | string => rfl
  | @array items _ inductionHypothesis =>
    rw [Json.canonical, canonicalItems_eq, List.map_congr_left inductionHypothesis, List.map_id']
  | @object fields ascending _ inductionHypothesis =>
    rw [Json.canonical, @canonicalFields_of_ascending fields [] ascending inductionHypothesis]
    rfl

theorem allScalars_canonical {property : Json → Prop} {json : Json} (all : json.AllScalars property) :
    json.canonical.AllScalars property := by
  induction json using induction with
  | scalar json isScalar =>
    cases json with
    | array | object => contradiction
    | null | bool | int | float | string => exact all
  | array items inductionHypothesis =>
    rw [allScalars_array] at all
    rw [canonical, canonicalItems_eq, allScalars_array, List.forall_mem_map]
    exact fun item member => inductionHypothesis item member (all item member)
  | object fields inductionHypothesis =>
    rw [allScalars_object] at all
    rw [canonical, allScalars_object]
    intro field among
    rcases mem_canonicalFields among with inNone | ⟨original, member, rfl⟩
    · contradiction
    · exact inductionHypothesis original member (all original member)

theorem height_canonical_le (json : Json) : json.canonical.height ≤ json.height := by
  induction json using induction with
  | scalar json isScalar =>
    cases json with
    | array | object => contradiction
    | null | bool | int | float | string => exact le_rfl
  | array items inductionHypothesis =>
    rw [canonical, canonicalItems_eq]
    apply Nat.succ_le_succ
    rw [heightOfItems_le_iff, List.forall_mem_map]
    exact fun item member => (inductionHypothesis item member).trans (heightOfItems_le_iff.mp le_rfl item member)
  | object fields inductionHypothesis =>
    rw [canonical]
    apply Nat.succ_le_succ
    rw [heightOfFields_le_iff]
    intro field among
    rcases mem_canonicalFields among with inNone | ⟨original, member, rfl⟩
    · contradiction
    · exact (inductionHypothesis original member).trans (heightOfFields_le_iff.mp le_rfl original member)

/-! ### Values of free form -/

theorem isFreeForm_iff {json : Json} : json.IsFreeForm ↔ json.IsOrdered ∧ json.AllScalars IsHoldable := by
  constructor
  · intro freeForm
    exact ⟨freeForm.canonical ▸ canonical_ordered json,
      fun scalar member => ⟨freeForm.whole scalar member, freeForm.finite scalar member⟩⟩
  · rintro ⟨ordered, holdable⟩
    exact ⟨ordered.canonical, fun scalar member => (holdable scalar member).1,
      fun scalar member => (holdable scalar member).2⟩

theorem freeForm_null : null.IsFreeForm :=
  isFreeForm_iff.mpr ⟨.scalar rfl, allScalars_null.mpr ⟨nofun, nofun⟩⟩

/-- What is read in canonical form is of free form, and nested within the limit. -/
theorem readCanonical_freeForm {text : String} {json : Json} (isRead : readCanonical text = .ok json) :
    json.IsFreeForm ∧ json.height < depthLimit := by
  unfold readCanonical at isRead
  cases found : read text with
  | error line =>
    rw [found] at isRead
    contradiction
  | ok value =>
    rw [found] at isRead
    obtain rfl := Except.ok.inj isRead
    have admitted := read_admitted found
    have shallow : value.height ≤ depthLimit - 1 := admitted.height _ _ rfl
    exact ⟨isFreeForm_iff.mpr ⟨canonical_ordered value, allScalars_canonical admitted.scalars⟩,
      Nat.lt_of_le_pred (by decide) ((height_canonical_le value).trans shallow)⟩

/-- The canonical form of what stands in the pretty text of a value is read from it. -/
theorem readCanonical_written {json : Json} (fits : json.AllScalars Fits) (shallow : json.height < depthLimit) :
    readCanonical json.pretty = .ok json.written.canonical := by
  have kept : (read json.pretty).toOption = some json.written := by
    have within : json.height ≤ depthLimit - 1 := Nat.le_sub_one_of_lt shallow
    have isRead := @readAs_pretty json (depthLimit - 1) .any (.any json) fits
    rwa [if_pos within] at isRead
  unfold readCanonical
  cases found : read json.pretty with
  | error line =>
    rw [found] at kept
    contradiction
  | ok value =>
    rw [found] at kept
    rw [Option.some.inj kept]
    rfl

/-- A value whose scalars can be held is read from its pretty text in canonical form. -/
theorem readCanonical_pretty {json : Json} (holdable : json.AllScalars IsHoldable)
    (shallow : json.height < depthLimit) : readCanonical json.pretty = .ok json.canonical := by
  rw [readCanonical_written (fun scalar among => (holdable scalar among).1) shallow,
    written_of_finite json fun scalar among => (holdable scalar among).2]

/-- A value is an item or a field of another one. -/
inductive IsPart (part : Json) : Json → Prop where
  | item {items : List Json} (member : part ∈ items) : IsPart part (.array items)
  | field {fields : List (String × Json)} {name : String} (member : (name, part) ∈ fields) :
      IsPart part (.object fields)

theorem isPart_of_field {json part : Json} {name : String} (isField : json.field? name = some part) :
    part.IsPart json := by
  cases json with
  | object fields =>
    obtain ⟨field, isFound, rfl⟩ := Option.map_eq_some_iff.mp isField
    exact .field (List.mem_reverse.mp (List.mem_of_find?_eq_some isFound))
  | null | bool | int | float | string | array => contradiction

theorem IsFreeForm.part {json part : Json} (freeForm : json.IsFreeForm) (isPart : part.IsPart json) :
    part.IsFreeForm := by
  obtain ⟨isOrdered, holdable⟩ := isFreeForm_iff.mp freeForm
  cases isPart with
  | item member =>
    cases isOrdered with
    | scalar => contradiction
    | array all => exact isFreeForm_iff.mpr ⟨all part member, (allScalars_array _).mp holdable part member⟩
  | field member =>
    cases isOrdered with
    | scalar => contradiction
    | object _ all => exact isFreeForm_iff.mpr ⟨all _ member, (allScalars_object _).mp holdable _ member⟩

theorem IsPart.height_lt {json part : Json} (isPart : part.IsPart json) : part.height < json.height := by
  cases isPart with
  | item member => exact Nat.lt_succ_of_le (heightOfItems_le_iff.mp le_rfl part member)
  | field member => exact Nat.lt_succ_of_le (heightOfFields_le_iff.mp le_rfl _ member)

end TradingStrategy.Json

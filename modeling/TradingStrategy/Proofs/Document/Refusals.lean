import TradingStrategy.Proofs.Document.Readers
import TradingStrategy.Proofs.Number.Monotone

/-!
Refused documents.

Owns:
- one lemma per section and per item of a section: its refusals are shown by the value that it is read from, be it that
  the name of an item stands in an earlier item, or that the ratios of the targets add up to too much;
- that the bars an entry may take are refused with a wording that some of them contradict;
- `refusals_are_shown`: the refusals of a whole document are shown by the document, but for that wording.
-/

namespace TradingStrategy

open StrategyDocument

/-! ### Items that are told apart -/

/-- A text that stands before an item stands before the next one. -/
theorem Json.StandsBefore.next {root : Json} {list : Json.Path} {index : Nat} {key text : String}
    (before : root.StandsBefore (list ++ [.position index]) key text) :
    root.StandsBefore (list ++ [.position (index + 1)]) key text := by
  obtain ⟨own, earlier, ownIndex, isItem, smaller, stands⟩ := before
  obtain ⟨rfl, sameStep⟩ := List.append_inj' isItem rfl
  obtain rfl := Json.Step.position.inj (List.head_eq_of_cons_eq sameStep)
  exact ⟨list, earlier, index + 1, rfl, Nat.lt_succ_of_lt smaller, stands⟩

namespace StrategyDocument

variable {root : Json}

/-- Items that are read one after another, with the values before them at hand, fail with what one of them fails with
when the values before it are named by earlier items. -/
theorem appended_shows {α : Type} {key : String} {name : α → String}
    {read : List α → Place → Except SchemaError α}
    (shows : ∀ {before item}, item.IsIn root → (∀ other ∈ before, root.StandsBefore item.path key (name other)) →
      FailsWith (·.ShownIn root) (read before item))
    (named : ∀ {before item value}, item.IsIn root → read before item = .ok value →
      root.at? (item.path ++ [.key key]) = some (.string (name value)))
    {list : Json.Path} {values : List Json} {items : List Place} {start : Nat} {before : List α}
    (areItems : items = (values.zipIdx start).map fun (value, index) => ⟨list ++ [.position index], value⟩)
    (areIn : ∀ item ∈ items, item.IsIn root)
    (earlier : ∀ other ∈ before, root.StandsBefore (list ++ [.position start]) key (name other)) :
    FailsWith (·.ShownIn root) (items.foldlM (fun before item => do return before ++ [← read before item]) before) := by
  -- The items that are left shrink, and with each that is read the names of the items before the next one grow.
  induction values generalizing items start before with
  | nil =>
    rw [areItems]
    exact .ok before
  | cons first rest inductionHypothesis =>
    rw [List.zipIdx_cons, List.map_cons] at areItems
    rw [areItems] at areIn ⊢
    obtain ⟨firstIn, restIn⟩ := List.forall_mem_cons.mp areIn
    rw [List.foldlM_cons]
    refine .bind (.bind (shows firstIn earlier) fun value _ => .ok _) fun between isBetween => ?_
    obtain ⟨value, isValue, appended⟩ := bind_eq_ok isBetween
    refine inductionHypothesis rfl restIn ?_
    rw [← Except.ok.inj appended]
    intro other member
    rcases List.mem_append.mp member with member | isLast
    · exact (earlier other member).next
    · rw [List.mem_singleton.mp isLast]
      exact ⟨list, start, start + 1, rfl, Nat.lt_succ_self start, by simpa using named firstIn isValue⟩

/-! ### Name, symbol and timeframe -/

variable {place item : Place}

theorem readMeta_shows (record : place.IsRecordIn root) : FailsWith (·.ShownIn root) (readMeta place) := by
  refine record.bindField "name" Place.asString_shows fun _ name _ _ => ?_
  refine record.bindField "symbol" Place.asString_shows fun _ symbol _ _ => ?_
  refine record.bindField "timeframe" Place.asString_shows fun timeframePlace text isTimeframe isText => ?_
  split
  · exact .ok _
  · next unknown => exact .error ⟨(record.isIn.field isTimeframe).asString isText, unknown⟩

/-! ### Features -/

theorem readFeature_shows {before : List FeatureDeclaration} (isIn : item.IsIn root)
    (earlier : ∀ other ∈ before, root.StandsBefore item.path "name" other.name) :
    FailsWith (·.ShownIn root) (readFeature before item) := by
  unfold readFeature
  refine .bind (Place.asObject_shows isIn) fun place isObject => ?_
  obtain ⟨rfl, record⟩ := isIn.asObject isObject
  refine record.bindField "name" Place.asString_shows fun namePlace name isName isText => ?_
  have namePath := Place.field_path isName
  have nameStands := (isIn.field isName).asString isText
  split
  · next notIdentifier => exact .error ⟨nameStands, by simpa using notIdentifier⟩
  · refine record.bindField "type" Place.asString_shows fun kindPlace text isKind isKindText => ?_
    have kindStands := (isIn.field isKind).asString isKindText
    split
    · next unknown => exact .error ⟨kindStands, unknown⟩
    · next kind known =>
      split
      · next foreign =>
        obtain ⟨rfl, notBuiltin⟩ := foreign
        have isBuiltinText : FeatureKind.builtin.name = text := by simpa using List.find?_some known
        refine .error ⟨nameStands, by simpa using notBuiltin, place.path, namePath, ?_⟩
        rw [← Place.field_path isKind, isBuiltinText]
        exact kindStands
      · split
        · next taken =>
          obtain ⟨other, member, same⟩ := List.any_eq_true.mp taken
          exact .error ⟨nameStands, place.path, namePath, eq_of_beq same ▸ earlier other member⟩
        · exact .ok _

/-- The name of a declared feature stands in its item. -/
theorem readFeature_named {before : List FeatureDeclaration} {feature : FeatureDeclaration} (isIn : item.IsIn root)
    (read : readFeature before item = .ok feature) :
    root.at? (item.path ++ [.key "name"]) = some (.string feature.name) := by
  unfold readFeature at read
  obtain ⟨place, isObject, read⟩ := bind_eq_ok read
  obtain rfl := asObject_same isObject
  obtain ⟨namePlace, isName, read⟩ := bind_eq_ok read
  obtain ⟨name, isText, read⟩ := bind_eq_ok read
  rw [← Place.field_path isName]
  split at read
  · contradiction
  · obtain ⟨kindPlace, _, read⟩ := bind_eq_ok read
    obtain ⟨text, _, read⟩ := bind_eq_ok read
    split at read
    · contradiction
    · split at read
      · contradiction
      · split at read
        · contradiction
        · rw [← Except.ok.inj read]
          exact (isIn.field isName).asString isText

theorem readFeatures_shows (isIn : place.IsIn root) : FailsWith (·.ShownIn root) (readFeatures place) := by
  refine .bind (Place.asItems_shows isIn) fun items areItems => ?_
  obtain ⟨values, _, isList, areIn⟩ := isIn.asItems areItems
  exact appended_shows readFeature_shows readFeature_named isList areIn fun _ member => absurd member List.not_mem_nil

/-! ### Rules -/

theorem conditions?_isIn {invalidate conditions : Place} (isIn : invalidate.IsIn root)
    (found : conditions? invalidate = some conditions) : conditions.IsIn root := by
  rw [conditions?, Option.orElse_eq_orElse, Option.orElse_eq_or, Option.or_eq_some_iff] at found
  rcases found with isField | ⟨_, isField⟩
  · exact isIn.field? isField
  · exact isIn.field? isField

theorem readRules_shows (record : place.IsRecordIn root) : FailsWith (·.ShownIn root) (readRules place) := by
  unfold readRules
  refine record.bindField "arm" Place.asString_shows fun _ arm _ _ => ?_
  refine record.bindField "trigger" Place.asString_shows fun _ trigger _ _ => ?_
  split
  · exact .ok _
  · next invalidate isInvalidate =>
    have invalidateIn := record.isIn.field? isInvalidate
    refine .bind (Place.asObject_shows invalidateIn) fun place isObject => ?_
    obtain ⟨rfl, _⟩ := invalidateIn.asObject isObject
    split
    · exact .ok _
    · next conditions areConditions =>
      have conditionsIn := conditions?_isIn invalidateIn areConditions
      refine .bind (Place.asItems_shows conditionsIn) fun items areItems => ?_
      obtain ⟨_, _, _, areIn⟩ := conditionsIn.asItems areItems
      exact .bind (.mapM fun item member => Place.asString_shows (areIn item member)) fun _ _ => .ok _

/-! ### Targets -/

theorem readTarget_shows (isIn : item.IsIn root) : FailsWith (·.ShownIn root) (readTarget item) := by
  unfold readTarget
  refine .bind (Place.asObject_shows isIn) fun place isObject => ?_
  obtain ⟨rfl, record⟩ := isIn.asObject isObject
  refine record.bindField "price" Place.asPrice_shows fun _ price _ _ => ?_
  refine record.bindField "ratioOfPosition" Place.asNumber_shows fun ratioPlace ratio isRatio isNumber => ?_
  split
  · exact .ok _
  · next outside =>
    exact .error ⟨ratioPlace.value, isIn.field isRatio, ratio, Place.asNumber_eq_ok isNumber, by simpa using outside⟩

/-- The ratio of a target stands in its item. -/
theorem readTarget_ratio {target : TargetDeclaration} (read : readTarget item = .ok target) :
    item.value.ratio? = some target.ratio := by
  obtain ⟨place, isRatio, isNumber⟩ := (readTarget_fields read).ratio
  rw [Json.ratio?, (Place.field?_eq_some (Place.field_eq_ok isRatio)).2.1]
  exact Place.asNumber_eq_ok isNumber

/-- What a value that is read shows of its item, the values of a list show of their items. -/
theorem mapM_map {α β : Type} {read : Place → Except SchemaError α} {itemView : Place → β} {valueView : α → β}
    (agree : ∀ {item value}, read item = .ok value → itemView item = valueView value) {items : List Place}
    {values : List α} (done : items.mapM read = .ok values) : items.map itemView = values.map valueView := by
  induction items generalizing values with
  | nil =>
    rw [← Except.ok.inj done]
    rfl
  | cons first rest inductionHypothesis =>
    rw [List.mapM_cons] at done
    obtain ⟨value, isValue, done⟩ := bind_eq_ok done
    obtain ⟨others, areOthers, done⟩ := bind_eq_ok done
    rw [← Except.ok.inj done, List.map_cons, List.map_cons, agree isValue, inductionHypothesis areOthers]

/-- Targets that together take more than they may take more than the position. -/
theorem not_ratioSum_le_one {targets : List TargetDeclaration} (sound : ∀ target ∈ targets, target.IsSound)
    (above : maxRatioSum < ratioSum targets) : ¬ratioSum targets ≤ 1.0 := by
  intro atMost
  have nonneg : 0.0 ≤ ratioSum targets := by
    have ratios : ∀ x ∈ targets.map TargetDeclaration.ratio, 0.0 ≤ x := by
      simpa using fun target member => (sound target member).ratio.1
    rw [ratioSum, ← List.foldl_map]
    exact (Number.le_foldl_add ratios (by decide)).1
  have withinBound := Number.le_trans_of_nonneg nonneg (by decide) (by decide : 0.0 ≤ maxRatioSum) atMost (by decide)
  exact (ratioSum_le_iff sound).mp withinBound above

/-- The ratios that break the limit of their sum stand in the items of the targets. -/
theorem ratioSum_broken {items : List Place} {targets : List TargetDeclaration} {values : List Json}
    (isArray : place.value = .array values) (areItems : items.map Place.value = values)
    (read : items.mapM readTarget = .ok targets) (above : maxRatioSum < ratioSum targets) :
    (Constraint.ratioSum (ratioSum targets)).BrokenBy place.value := by
  have sound : ∀ target ∈ targets, target.IsSound := mapM_all (fun _ _ => readTarget_sound) read
  refine ⟨values, targets.map TargetDeclaration.ratio, isArray, ?_, List.foldl_map, not_ratioSum_le_one sound above⟩
  rw [← areItems, List.map_map, List.map_map]
  exact mapM_map readTarget_ratio read

/-! ### Order plans -/

theorem readZone_shows (isIn : place.IsIn root) : FailsWith (·.ShownIn root) (readZone place) := by
  unfold readZone
  refine .bind (Place.asItems_shows isIn) fun items areItems => ?_
  obtain ⟨values, isArray, isList, areIn⟩ := isIn.asItems areItems
  have itemValues := Place.values_of_places isList
  split
  · next lowPlace highPlace =>
    have isPair : place.value = .array [lowPlace.value, highPlace.value] := by rw [isArray, ← itemValues]; rfl
    refine .bind (Place.asPrice_shows (areIn lowPlace (by simp))) fun low isLow => ?_
    refine .bind (Place.asPrice_shows (areIn highPlace (by simp))) fun high isHigh => ?_
    split
    · next l h =>
      split
      · next below =>
        have numberL := Number.isNumber_of_finite (Place.asPrice_sound isLow).1
        have numberH := Number.isNumber_of_finite (Place.asPrice_sound isHigh).1
        have notOrdered : ¬l ≤ h := mt (Number.le_iff_not_lt numberL numberH).mp (not_not_intro below)
        exact .error ⟨place.value, isIn, lowPlace.value, highPlace.value, isPair, Place.asPrice_literal isLow,
          Place.asPrice_literal isHigh, notOrdered⟩
      · exact .ok _
    · exact .ok _
  · next notPair =>
    have sameLength : values.length = items.length := by rw [← itemValues, List.length_map]
    refine .error ⟨values, isArray ▸ isIn, sameLength, fun two => ?_⟩
    obtain ⟨low, high, isPair⟩ := List.length_eq_two.mp two
    exact notPair low high isPair

theorem readSide_shows (isIn : place.IsIn root) : FailsWith (·.ShownIn root) (readSide place) := by
  refine .bind (Place.asString_shows isIn) fun text isText => ?_
  split
  · exact .ok _
  · next unknown => exact .error ⟨isIn.asString isText, unknown⟩

theorem readSymbol_shows (isIn : place.IsIn root) (symbol : String) :
    FailsWith (·.ShownIn root) (readSymbol place symbol) := by
  unfold readSymbol
  split
  · next isField => exact Place.asString_shows (isIn.field? isField)
  · exact .ok symbol

theorem readPlan_shows (symbol : String) (isIn : item.IsIn root) :
    FailsWith (·.ShownIn root) (readPlan symbol item) := by
  unfold readPlan
  refine .bind (Place.asObject_shows isIn) fun place isObject => ?_
  obtain ⟨rfl, record⟩ := isIn.asObject isObject
  refine record.bindField "id" Place.asString_shows fun _ id _ _ => ?_
  refine .bind (readSymbol_shows isIn symbol) fun planSymbol _ => ?_
  refine record.bindField "side" readSide_shows fun _ side _ _ => ?_
  refine record.bindField "entryZone" readZone_shows fun _ zone _ _ => ?_
  refine record.bindField "qty" Place.asPositive_shows fun _ quantity _ _ => ?_
  refine record.bindField "stopPrice" Place.asPrice_shows fun _ stop _ _ => ?_
  refine record.bindField "targets" Place.asSomeItems_shows fun targetsPlace items isTargets areItems => ?_
  have targetsIn := isIn.field isTargets
  obtain ⟨values, isArray, isList, areIn⟩ := targetsIn.asItems (Place.asSomeItems_eq_ok areItems)
  refine .bind (.mapM fun target member => readTarget_shows (areIn target member)) fun targets areTargets => ?_
  dsimp only
  split
  · next above =>
    exact .error ⟨targetsPlace.value, targetsIn,
      ratioSum_broken isArray (Place.values_of_places isList) areTargets above⟩
  · exact .ok _

/-- The name of an order plan stands in its item. -/
theorem readPlan_named {symbol : String} {plan : PlanDeclaration} (isIn : item.IsIn root)
    (read : readPlan symbol item = .ok plan) : root.at? (item.path ++ [.key "id"]) = some (.string plan.id) := by
  obtain ⟨place, isId, isText⟩ := (readPlan_fields read).id
  rw [← Place.field_path isId]
  exact (isIn.field isId).asString isText

theorem readNextPlan_shows (symbol : String) {before : List PlanDeclaration} (isIn : item.IsIn root)
    (earlier : ∀ other ∈ before, root.StandsBefore item.path "id" other.id) :
    FailsWith (·.ShownIn root) (readNextPlan symbol before item) := by
  refine .bind (readPlan_shows symbol isIn) fun plan isPlan => ?_
  split
  · next taken =>
    obtain ⟨other, member, same⟩ := List.any_eq_true.mp taken
    exact .error ⟨readPlan_named isIn isPlan, item.path, rfl, eq_of_beq same ▸ earlier other member⟩
  · exact .ok plan

theorem readPlans_shows (symbol : String) (isIn : place.IsIn root) :
    FailsWith (·.ShownIn root) (readPlans symbol place) := by
  refine .bind (Place.asSomeItems_shows isIn) fun items areItems => ?_
  obtain ⟨values, _, isList, areIn⟩ := isIn.asItems (Place.asSomeItems_eq_ok areItems)
  exact appended_shows (readNextPlan_shows symbol)
    (fun isIn read => readPlan_named isIn (readNextPlan_read read)) isList areIn
    fun _ member => absurd member List.not_mem_nil

/-! ### Execution -/

/-- The bars that an entry may take are refused with a wording that a whole number from one on contradicts. -/
theorem readTimeout_shows (isIn : place.IsIn root) (path : place.path = [.key "execution", .key "entryTimeoutBars"]) :
    FailsWith (fun error => error.ShownIn root ∨ error.MistakesTimeout root) (readTimeout place) := by
  obtain ⟨path, value⟩ := place
  subst path
  cases value with
  | int count =>
    unfold readTimeout
    dsimp only
    split
    · exact .ok _
    · next outside =>
      by_cases fromOne : 1 ≤ count
      · have tooLarge : maxTimeoutBars < count := by omega
        exact .error (.inr ⟨rfl, rfl, .int count, isIn, fromOne, .inl ⟨count, rfl, tooLarge⟩⟩)
      · exact .error (.inl ⟨.int count, isIn, rfl, fromOne⟩)
  | float x =>
    by_cases whole : (Json.float x).IsWholeFromOne
    · exact .error (.inr ⟨rfl, rfl, .float x, isIn, whole, .inr ⟨x, rfl⟩⟩)
    · exact .error (.inl ⟨.float x, isIn, rfl, whole⟩)
  | null | bool | string | array | object =>
    exact (Place.wrongType_shows isIn (by simp [Json.kindName, Json.admittedKinds])).mono fun _ => .inl

theorem readExecution_shows (isIn : item.IsIn root) (path : item.path = [.key "execution"]) :
    FailsWith (fun error => error.ShownIn root ∨ error.MistakesTimeout root) (readExecution item) := by
  unfold readExecution
  refine .bind ((Place.asObject_shows isIn).mono fun _ => .inl) fun place isObject => ?_
  obtain ⟨rfl, _⟩ := isIn.asObject isObject
  refine .bindOr (fun timeoutPlace isTimeout => ?_) fun timeout _ => ?_
  · refine readTimeout_shows (isIn.field? isTimeout) ?_
    rw [(Place.field?_eq_some isTimeout).1, Place.pathOf, path]
    rfl
  · refine .bindOr (fun flagPlace isFlag => ?_) fun flag _ => .ok _
    exact (Place.asBool_shows (isIn.field? isFlag)).mono fun _ => .inl

/-! ### The whole document -/

theorem checkSections_shows (record : (Place.mk [] root).IsRecordIn root) :
    FailsWith (·.ShownIn root) (checkSections ⟨[], root⟩) := by
  obtain ⟨fields, isObject⟩ := record.isObject
  obtain rfl : root = .object fields := isObject
  unfold checkSections
  dsimp only
  split
  · next name value found =>
    have noSection : name ∉ sections := by simpa using List.find?_some found
    have inObject : (Json.lookup? name fields).isSome = true := by
      rw [Json.lookup?, Option.isSome_map, List.find?_isSome]
      exact ⟨(name, value), List.mem_reverse.mpr (List.mem_of_find?_eq_some found), beq_self_eq_true name⟩
    exact .error ⟨name, fields, rfl, rfl, inObject, noSection⟩
  · exact .ok ()

/-- A section that must be there and an object, and what follows on it. -/
theorem bindSection {α : Type} {property : SchemaError → Prop} {next : Place → Except SchemaError α}
    (weaker : ∀ error, error.ShownIn root → property error) (record : place.IsRecordIn root) (key : String)
    (rest : ∀ inner, inner.IsRecordIn root → FailsWith property (next inner)) :
    FailsWith property (place.field key >>= fun inner => inner.asObject >>= next) := by
  refine .bind ((Place.field_shows record key).mono weaker) fun inner isField => ?_
  have innerIn := record.isIn.field isField
  refine .bind ((Place.asObject_shows innerIn).mono weaker) fun object isObject => ?_
  obtain ⟨rfl, innerRecord⟩ := innerIn.asObject isObject
  exact rest object innerRecord

theorem validate_shows (root : Json) :
    FailsWith (fun error => error.ShownIn root ∨ error.MistakesTimeout root) (validate root) := by
  have weaker (error : SchemaError) : error.ShownIn root → error.ShownIn root ∨ error.MistakesTimeout root := .inl
  have rootIn : (Place.mk [] root).IsIn root := rfl
  refine .bind ((Place.asObject_shows rootIn).mono weaker) fun place isObject => ?_
  obtain ⟨rfl, record⟩ := rootIn.asObject isObject
  refine .bind ((checkSections_shows record).mono weaker) fun _ _ => ?_
  refine bindSection weaker record "meta" fun metaPlace metaRecord => ?_
  refine .bind ((readMeta_shows metaRecord).mono weaker) fun info _ => ?_
  refine .bindOr (fun featuresPlace isFeatures => ?_) fun features _ => ?_
  · exact (readFeatures_shows (rootIn.field? isFeatures)).mono weaker
  refine bindSection weaker record "rules" fun rulesPlace rulesRecord => ?_
  refine .bind ((readRules_shows rulesRecord).mono weaker) fun rules _ => ?_
  refine .bind ((Place.field_shows record "orderPlans").mono weaker) fun plansPlace isPlans => ?_
  refine .bind ((readPlans_shows info.symbol (rootIn.field isPlans)).mono weaker) fun plans _ => ?_
  refine .bindOr (fun executionPlace isExecution => ?_) fun execution _ => ?_
  · exact readExecution_shows (rootIn.field? isExecution) (Place.field?_eq_some isExecution).1
  refine bindSection weaker record "risk" fun riskPlace riskRecord => ?_
  exact (riskRecord.bindField "maxRiskPerTrade" Place.asPositive_shows fun _ limit _ _ => .ok _).mono weaker

/-- What is no object is refused as a whole. -/
theorem validate_root {root : Json} (noObject : root.kindName ≠ "object") :
    validate root = .error ⟨[], .wrongType "object" root.kindName⟩ := by
  cases root with
  | object fields => exact absurd rfl noObject
  | null | bool | int | float | string | array => rfl

/-- What a document is refused for is shown at the path of the error, unless the bars that an entry may take are refused
as no whole number from one on, although they are one. What is no object is refused at its root. -/
theorem refusals_are_shown {root : Json} {error : SchemaError} (refused : validate root = .error error) :
    (error.ShownIn root ↔ ¬error.MistakesTimeout root) ∧
      (root.kindName ≠ "object" →
        error = ⟨[], .wrongType "object" root.kindName⟩ ∧ Json.pathText error.path = "$") := by
  constructor
  · constructor
    · exact fun shows mistakes => mistakes.not_shownIn shows
    · exact fun sound => (validate_shows root error refused).resolve_right sound
  · intro noObject
    obtain rfl := Except.error.inj (refused.symm.trans (validate_root noObject))
    exact ⟨rfl, rfl⟩

/-- A document with the order plans and the bars that an entry may take. -/
def timedDocument (plans : List Json) (bars : Json) : Json :=
  .object [
    ("meta", .object [("name", .string "timed"), ("symbol", .string "ACME"), ("timeframe", .string "5m")]),
    ("rules", .object [("arm", .string "close > open"), ("trigger", .string "close > 0")]),
    ("orderPlans", .array plans),
    ("execution", .object [("entryTimeoutBars", bars), ("rthOnly", .bool false)]),
    ("risk", .object [("maxRiskPerTrade", .int 100)])]

/-- An order plan with prices that are numbers. -/
def pricedPlan : Json :=
  .object [
    ("id", .string "primary"), ("side", .string "buy"), ("entryZone", .array [.int 100, .int 101]), ("qty", .int 10),
    ("stopPrice", .int 95), ("targets", .array [.object [("price", .int 110), ("ratioOfPosition", .int 1)]])]

/-- The second one of two equal order plans is refused for its name, which stands in the first one, too; a list is
refused at its root. -/
theorem repeated_plan_is_shown :
    validate (timedDocument [pricedPlan, pricedPlan] (.int 10)) =
        .error ⟨[.key "orderPlans", .position 1, .key "id"], .invalid (.duplicatePlan "primary")⟩ ∧
      SchemaError.ShownIn (timedDocument [pricedPlan, pricedPlan] (.int 10))
        ⟨[.key "orderPlans", .position 1, .key "id"], .invalid (.duplicatePlan "primary")⟩ ∧
      validate (.array [pricedPlan]) = .error ⟨[], .wrongType "object" "array"⟩ ∧ Json.pathText [] = "$" := by
  have refused : validate (timedDocument [pricedPlan, pricedPlan] (.int 10)) =
      .error ⟨[.key "orderPlans", .position 1, .key "id"], .invalid (.duplicatePlan "primary")⟩ :=
    eq_error_of_test (by decide +kernel)
  have refusedList : validate (.array [pricedPlan]) = .error ⟨[], .wrongType "object" "array"⟩ := rfl
  refine ⟨refused, (refusals_are_shown refused).1.mpr fun mistakes => ?_, refusedList,
    ((refusals_are_shown refusedList).2 (by decide)).2⟩
  exact absurd mistakes.path (by decide)

/-- Bars that do not fit in 32 bits are refused as no whole number from one on. -/
theorem long_timeout_is_not_shown :
    ∃ error, validate (timedDocument [pricedPlan] (.int 4294967296)) = .error error ∧
      error.message = "schema violation at execution.entryTimeoutBars: out of range: must be a whole number >= 1" ∧
      (timedDocument [pricedPlan] (.int 4294967296)).at? error.path = some (.int 4294967296) ∧
      ¬error.ShownIn (timedDocument [pricedPlan] (.int 4294967296)) := by
  have refused : validate (timedDocument [pricedPlan] (.int 4294967296)) =
      .error ⟨[.key "execution", .key "entryTimeoutBars"], .outOfRange .positiveWhole⟩ :=
    eq_error_of_test (by decide +kernel)
  refine ⟨_, refused, by decide +kernel, rfl, SchemaError.MistakesTimeout.not_shownIn ⟨rfl, rfl, ?_⟩⟩
  exact ⟨.int 4294967296, rfl, (by decide : (1 : Int) ≤ 4294967296), .inl ⟨4294967296, rfl, by decide⟩⟩

end StrategyDocument

end TradingStrategy

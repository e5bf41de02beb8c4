import TradingStrategy.Document.Codec
import TradingStrategy.Proofs.Document.Places
import TradingStrategy.Proofs.Expr.Spelling

/-!
Serialized documents are validated.

Owns:
- what stands in the fields of every part of a document;
- that every part is read from its stored form exactly if it is sound;
- `IsStorable`: what the fields of a document can hold, and `validates_document` for a document that they hold.

A field whose place a refusal names is read with `Gives.field`, every other one with `Validates.field`.
-/

namespace TradingStrategy

open StrategyDocument

/-! ### Names -/

theorem notBlank_of_identifier {name : String} (identifier : isIdentifier name = true) :
    Text.isBlankText name = false := by
  unfold isIdentifier at identifier
  unfold Text.isBlankText
  split at identifier
  · contradiction
  · next first rest isText =>
    have range := (Expr.isNameStart_iff first).mp (Bool.and_eq_true_iff.mp identifier).1
    rw [isText, List.all_cons, Text.notBlank_of_visible (by omega) (by omega), Bool.false_and]

theorem Timeframe.ofName?_name (timeframe : Timeframe) : ofName? timeframe.name = some timeframe := by
  cases timeframe <;> rfl

theorem Timeframe.name_notBlank (timeframe : Timeframe) : Text.isBlankText timeframe.name = false := by
  cases timeframe <;> decide

theorem FeatureKind.ofName?_name (kind : FeatureKind) : ofName? kind.name = some kind := by
  cases kind <;> rfl

theorem FeatureKind.name_notBlank (kind : FeatureKind) : Text.isBlankText kind.name = false := by
  cases kind <;> decide

theorem Side.ofName?_name (side : Side) : ofName? side.name = some side := by
  cases side <;> rfl

theorem Side.name_notBlank (side : Side) : Text.isBlankText side.name = false := by
  cases side <;> decide

/-! ### Values -/

namespace Place

theorem validates_string (text : String) :
    Validates asString (.string text) (Text.isBlankText text = false) text where
  gives path := by
    show Gives (if Text.isBlankText text = true then .error _ else .ok text) _ _
    exact (Gives.refuse_if fun _ => .pure text).congr (by simp)
  present _ := Json.stored_string_ne_null text

theorem validates_bool (flag : Bool) : Validates asBool (.bool flag) True flag where
  gives _ := .pure flag
  present _ := Json.stored_bool_ne_null flag

theorem validates_number (x : Float) : Validates asNumber (.float x) (x.isFinite = true) x where
  gives path := by
    by_cases finite : x.isFinite = true
    · rw [Json.stored_float, if_pos finite]
      show Gives (if x.isFinite = true then .ok x else .error _) _ _
      rw [if_pos finite]
      exact (Gives.pure x).congr (iff_of_true trivial finite)
    · rw [Json.stored_float, if_neg finite]
      exact .error finite
  present finite := by
    simp [Json.stored_float, finite]

theorem validates_positive (x : Float) : Validates asPositive (.float x) (x.isFinite = true ∧ 0.0 < x) x where
  gives path :=
    (((validates_number x).gives path).bind fun _ => Gives.refuse_if fun _ => .pure x).congr
      (and_congr_right fun finite => by rw [and_true, Number.pos_iff_not_le finite])
  present sound := (validates_number x).present sound.1

theorem validates_price (price : PriceSpec) : Validates asPrice price.toJson price.IsSound price := by
  cases price with
  | literal value =>
    refine ⟨fun path => ?_, fun sound => (validates_number value).present sound.1⟩
    rw [PriceSpec.toJson, Json.stored_float]
    by_cases finite : value.isFinite = true
    · rw [if_pos finite]
      show Gives (if (value.isFinite && 0.0 < value) = true then .ok (PriceSpec.literal value) else .error _) _ _
      exact (Gives.accept_if fun _ => .pure _).congr (by simp [PriceSpec.IsSound])
    · rw [if_neg finite]
      exact .error fun sound => finite sound.1
  | expression text =>
    refine ⟨fun path => ?_, fun _ => Json.stored_string_ne_null text⟩
    show Gives (if Text.isBlankText text = true then .error _ else .ok (PriceSpec.expression text)) _ _
    exact (Gives.refuse_if fun _ => .pure _).congr (by simp [PriceSpec.IsSound])

end Place

namespace StrategyDocument

/-! ### Order plans -/

theorem validates_zone (low high : PriceSpec) : Validates readZone (.array [low.toJson, high.toJson])
    (low.IsSound ∧ high.IsSound ∧ low.InOrder high) (low, high) := by
  refine ⟨fun path => Gives.step rfl ?_, fun _ => Json.stored_array_ne_null _⟩
  refine ((Place.validates_price low).gives _).bind fun lowSound =>
    ((Place.validates_price high).gives _).bind fun highSound => ?_
  cases low with
  | expression text => exact (Gives.pure _).congr (iff_of_true trivial nofun)
  | literal l =>
    cases high with
    | expression text => exact (Gives.pure _).congr (iff_of_true trivial nofun)
    | literal h =>
      exact (Gives.refuse_if fun _ => .pure _).congr (by rw [and_true, inOrder_literals lowSound highSound])

theorem targetToJson_fields (target : TargetDeclaration) : ∃ fields, targetToJson target = .object fields ∧
    Json.lookup? "price" fields = some target.price.toJson ∧
    Json.lookup? "ratioOfPosition" fields = some (.float target.ratio) :=
  ⟨_, rfl, rfl, rfl⟩

theorem validates_target (target : TargetDeclaration) :
    Validates readTarget (targetToJson target) target.IsSound target := by
  obtain ⟨fields, isObject, hasPrice, hasRatio⟩ := targetToJson_fields target
  rw [isObject]
  refine ⟨fun path => Gives.step (asObject_stored ..) ?_, fun _ => Json.stored_object_ne_null _⟩
  have ratio := Place.validates_number target.ratio
  refine ((Place.validates_price target.price).field hasPrice fun _ =>
    Gives.field hasRatio (fun sound => ratio.present sound.1)
      ((ratio.gives _).bind fun _ => Gives.accept_if fun _ => .pure target)).congr ?_
  have inRange : (0.0 ≤ target.ratio && target.ratio ≤ 1.0) = true ↔ 0.0 ≤ target.ratio ∧ target.ratio ≤ 1.0 := by simp
  rw [and_true, inRange]
  constructor
  · exact fun ⟨price, _, ratio⟩ => ⟨price, ratio⟩
  -- Only finite numbers are in the range, so that a sound ratio is never stored as null.
  · exact fun ⟨price, ratio⟩ => ⟨price, Number.finite_of_ratio ratio.1 ratio.2, ratio⟩

theorem validates_side (side : Side) : Validates readSide (.string side.name) True side := by
  refine ⟨fun path => ?_, fun _ => Json.stored_string_ne_null side.name⟩
  refine (((Place.validates_string side.name).gives path).bind fun _ => ?_).congr
    (iff_of_true ⟨side.name_notBlank, trivial⟩ trivial)
  rw [Side.ofName?_name]
  exact .pure side

theorem planToJson_fields (plan : PlanDeclaration) : ∃ fields, planToJson plan = .object fields ∧
    Json.lookup? "id" fields = some (.string plan.id) ∧
    Json.lookup? "symbol" fields = some (.string plan.symbol) ∧
    Json.lookup? "side" fields = some (.string plan.side.name) ∧
    Json.lookup? "entryZone" fields = some (.array [plan.zoneLow.toJson, plan.zoneHigh.toJson]) ∧
    Json.lookup? "qty" fields = some (.float plan.quantity) ∧
    Json.lookup? "stopPrice" fields = some plan.stop.toJson ∧
    Json.lookup? "targets" fields = some (.array (plan.targets.map targetToJson)) :=
  ⟨_, rfl, rfl, rfl, rfl, rfl, rfl, rfl, rfl⟩

theorem validates_plan (symbol : String) (plan : PlanDeclaration) :
    Validates (readPlan symbol) (planToJson plan) plan.IsSound plan := by
  obtain ⟨fields, isObject, hasId, hasSymbol, hasSide, hasZone, hasQuantity, hasStop, hasTargets⟩ :=
    planToJson_fields plan
  rw [isObject]
  refine ⟨fun path => Gives.step (asObject_stored ..) ?_, fun _ => Json.stored_object_ne_null _⟩
  have symbolGiven : Gives (readSymbol ⟨path, (Json.object fields).stored⟩ symbol)
      (Text.isBlankText plan.symbol = false) plan.symbol := by
    unfold readSymbol
    rw [place_field?_stored hasSymbol (Json.stored_string_ne_null plan.symbol)]
    exact (Place.validates_string plan.symbol).gives _
  have targets : Gives (do
      let targetsPlace ← Place.field ⟨path, (Json.object fields).stored⟩ "targets"
      let targets ← (← targetsPlace.asSomeItems).mapM readTarget
      let total := ratioSum targets
      if maxRatioSum < total then targetsPlace.refuse (.outOfRange (.ratioSum total))
      else return { plan with targets })
      (plan.targets ≠ [] ∧ (∀ target ∈ plan.targets, target.IsSound) ∧ ¬maxRatioSum < ratioSum plan.targets ∧ True)
      plan :=
    Gives.field hasTargets (fun _ => Json.stored_array_ne_null _) (Gives.someItems fun items held =>
      (gives_mapM (fun target _ => validates_target target) held).bind fun _ => Gives.refuse_if fun _ => .pure plan)
  refine ((Place.validates_string plan.id).field hasId fun _ => symbolGiven.bind fun _ =>
    (validates_side plan.side).field hasSide fun _ =>
    (validates_zone plan.zoneLow plan.zoneHigh).field hasZone fun _ =>
    (Place.validates_positive plan.quantity).field hasQuantity fun _ =>
    (Place.validates_price plan.stop).field hasStop fun _ => targets).congr ?_
  constructor
  · rintro ⟨id, symbol, _, ⟨zoneLow, zoneHigh, inOrder⟩, quantity, stop, hasTarget, targets, ratios, _⟩
    exact ⟨id, symbol, zoneLow, zoneHigh, inOrder, quantity, stop, hasTarget, targets,
      (ratioSum_le_iff targets).mpr ratios⟩
  · intro sound
    exact ⟨sound.id, sound.symbol, trivial, ⟨sound.zoneLow, sound.zoneHigh, sound.inOrder⟩, sound.quantity, sound.stop,
      sound.hasTarget, sound.targets, (ratioSum_le_iff sound.targets).mp sound.ratios, trivial⟩

theorem validates_nextPlan (symbol : String) (before : List PlanDeclaration) (plan : PlanDeclaration) :
    Validates (readNextPlan symbol before) (planToJson plan)
      (plan.IsSound ∧ plan.id ∉ before.map PlanDeclaration.id) plan := by
  have read := validates_plan symbol plan
  refine ⟨fun path => ?_, fun sound => read.present sound.1⟩
  refine ((read.gives path).bind fun _ => Gives.refuse_if fun _ => .pure plan).congr (and_congr_right fun _ => ?_)
  simp

theorem validates_plans (symbol : String) (plans : List PlanDeclaration) :
    Validates (readPlans symbol) (.array (plans.map planToJson))
      (plans ≠ [] ∧ (∀ plan ∈ plans, plan.IsSound) ∧ (plans.map PlanDeclaration.id).Nodup) plans := by
  refine ⟨fun path => ?_, fun _ => Json.stored_array_ne_null _⟩
  exact Gives.someItems fun items held =>
    gives_foldlM (fun before plan _ => validates_nextPlan symbol before plan) held List.nodup_nil

/-! ### Features -/

theorem featureToJson_fields (feature : FeatureDeclaration) : ∃ fields, featureToJson feature = .object fields ∧
    Json.lookup? "name" fields = some (.string feature.name) ∧
    Json.lookup? "type" fields = some (.string feature.kind.name) ∧
    (Json.lookup? "params" fields).getD .null = feature.params := by
  obtain ⟨name, kind, params⟩ := feature
  cases params <;> exact ⟨_, rfl, rfl, rfl, rfl⟩

theorem validates_feature (before : List FeatureDeclaration) {feature : FeatureDeclaration}
    (freeForm : feature.params.IsFreeForm) : Validates (readFeature before) (featureToJson feature)
      (feature.IsSound ∧ feature.name ∉ before.map FeatureDeclaration.name) feature := by
  obtain ⟨fields, isObject, hasName, hasKind, hasParams⟩ := featureToJson_fields feature
  rw [isObject]
  refine ⟨fun path => Gives.step (asObject_stored ..) ?_, fun _ => Json.stored_object_ne_null _⟩
  have params := place_field?_getD path "params" fields
  rw [hasParams, freeForm.stored] at params
  rw [params]
  have name := Place.validates_string feature.name
  have kind := Place.validates_string feature.kind.name
  refine (Gives.field hasName (fun sound => name.present sound.1) ((name.gives _).bind fun _ =>
    Gives.refuse_if fun _ => Gives.field hasKind (fun sound => kind.present sound.1) ((kind.gives _).bind fun _ =>
      (?isNew : Gives _ (¬(feature.kind = .builtin ∧ (!isBuiltin feature.name) = true) ∧
        ¬(before.any fun other => other.name == feature.name) = true ∧ True) feature)))).congr ?same
  case isNew =>
    rw [FeatureKind.ofName?_name]
    exact Gives.refuse_if fun _ => Gives.refuse_if fun _ => .pure feature
  case same =>
    constructor
    · rintro ⟨_, identifier, _, known, new, _⟩
      exact ⟨⟨by simpa using identifier, by simpa using known⟩, by simpa using new⟩
    · rintro ⟨⟨identifier, known⟩, new⟩
      exact ⟨notBlank_of_identifier identifier, by simpa using identifier, feature.kind.name_notBlank,
        by simpa using known, by simpa using new, trivial⟩

theorem validates_features {features : List FeatureDeclaration}
    (freeForm : ∀ feature ∈ features, feature.params.IsFreeForm) :
    Validates readFeatures (.array (features.map featureToJson))
      ((∀ feature ∈ features, feature.IsSound) ∧ (features.map FeatureDeclaration.name).Nodup) features := by
  refine ⟨fun path => ?_, fun _ => Json.stored_array_ne_null _⟩
  exact Gives.items fun items held =>
    gives_foldlM (fun before feature member => validates_feature before (freeForm feature member)) held List.nodup_nil

/-! ### Sections -/

theorem metaToJson_fields (info : StrategyMeta) : ∃ fields, metaToJson info = .object fields ∧
    Json.lookup? "name" fields = some (.string info.name) ∧
    Json.lookup? "symbol" fields = some (.string info.symbol) ∧
    Json.lookup? "timeframe" fields = some (.string info.timeframe.name) :=
  ⟨_, rfl, rfl, rfl, rfl⟩

theorem validates_meta (info : StrategyMeta) : Validates readMeta (metaToJson info) info.IsSound info := by
  obtain ⟨fields, isObject, hasName, hasSymbol, hasTimeframe⟩ := metaToJson_fields info
  rw [isObject]
  refine ⟨fun path => ?_, fun _ => Json.stored_object_ne_null _⟩
  have timeframe := Place.validates_string info.timeframe.name
  refine ((Place.validates_string info.name).field hasName fun _ =>
    (Place.validates_string info.symbol).field hasSymbol fun _ =>
    Gives.field hasTimeframe (fun sound => timeframe.present sound.1)
      ((timeframe.gives _).bind fun _ => (?known : Gives _ True info))).congr ?same
  case known =>
    rw [Timeframe.ofName?_name]
    exact .pure info
  case same =>
    constructor
    · rintro ⟨name, symbol, _⟩
      exact ⟨name, symbol⟩
    · rintro ⟨name, symbol⟩
      exact ⟨name, symbol, info.timeframe.name_notBlank, trivial⟩

theorem rulesToJson_fields (rules : Rules) : ∃ fields, rulesToJson rules = .object fields ∧
    Json.lookup? "arm" fields = some (.string rules.arm) ∧
    Json.lookup? "trigger" fields = some (.string rules.trigger) ∧
    Json.lookup? "invalidate" fields = some (.object [("when_any", .array (rules.invalidate.map .string))]) :=
  ⟨_, rfl, rfl, rfl, rfl⟩

theorem validates_rules (rules : Rules) : Validates readRules (rulesToJson rules) rules.IsSound rules := by
  obtain ⟨fields, isObject, hasArm, hasTrigger, hasInvalidate⟩ := rulesToJson_fields rules
  rw [isObject]
  refine ⟨fun path => ?_, fun _ => Json.stored_object_ne_null _⟩
  unfold readRules
  rw [place_field?_stored hasInvalidate (Json.stored_object_ne_null _)]
  refine ((Place.validates_string rules.arm).field hasArm fun _ =>
    (Place.validates_string rules.trigger).field hasTrigger fun _ => Gives.step (asObject_stored ..)
      (?invalidate : Gives _ ((∀ condition ∈ rules.invalidate, Text.isBlankText condition = false) ∧ True)
        rules)).congr ?same
  case invalidate =>
    unfold conditions?
    rw [place_field?_stored rfl (Json.stored_array_ne_null _)]
    exact Gives.items fun items held =>
      (gives_mapM (fun condition _ => Place.validates_string condition) held).bind fun _ => .pure rules
  case same =>
    constructor
    · rintro ⟨arm, trigger, invalidate, _⟩
      exact ⟨arm, trigger, invalidate⟩
    · rintro ⟨arm, trigger, invalidate⟩
      exact ⟨arm, trigger, invalidate, trivial⟩

theorem executionToJson_fields (execution : Execution) : ∃ fields, executionToJson execution = .object fields ∧
    Json.lookup? "entryTimeoutBars" fields = some (.int execution.entryTimeoutBars) ∧
    Json.lookup? "rthOnly" fields = some (.bool execution.regularHoursOnly) :=
  ⟨_, rfl, rfl, rfl⟩

theorem validates_timeout {bars : ℕ} (fits : bars ≤ Json.limit32) :
    Validates readTimeout (.int bars) (1 ≤ bars) bars := by
  refine ⟨fun path => ?_, fun _ => Json.stored_int_ne_null bars⟩
  show Gives (if 1 ≤ (bars : ℤ) ∧ (bars : ℤ) ≤ maxTimeoutBars then .ok (bars : ℤ).toNat else .error _) _ _
  have inRange : 1 ≤ (bars : ℤ) ∧ (bars : ℤ) ≤ maxTimeoutBars ↔ 1 ≤ bars := by
    have same : maxTimeoutBars = Json.limit32 := rfl
    omega
  exact (Gives.accept_if fun _ => .pure bars).congr (by rw [and_true, inRange])

theorem validates_execution {execution : Execution} (fits : execution.entryTimeoutBars ≤ Json.limit32) :
    Validates readExecution (executionToJson execution) (1 ≤ execution.entryTimeoutBars) execution := by
  obtain ⟨fields, isObject, hasTimeout, hasFlag⟩ := executionToJson_fields execution
  rw [isObject]
  refine ⟨fun path => Gives.step (asObject_stored ..) ?_, fun _ => Json.stored_object_ne_null _⟩
  rw [place_field?_stored hasTimeout (Json.stored_int_ne_null _),
    place_field?_stored hasFlag (Json.stored_bool_ne_null _)]
  exact (((validates_timeout fits).gives _).bind fun _ =>
    ((Place.validates_bool execution.regularHoursOnly).gives _).bind fun _ => .pure execution).congr (by simp)

/-! ### Documents -/

/-- What the fields of a document can hold: parameters of any form, and a time-out of 32 bits. -/
structure IsStorable (document : StrategyDocument) : Prop where
  params : ∀ feature ∈ document.features, feature.params.IsFreeForm
  timeout : document.execution.entryTimeoutBars ≤ Json.limit32

/-- The value that holds a document. -/
def serialized (document : StrategyDocument) : Json :=
  document.toJson.stored

theorem toJson_fields (document : StrategyDocument) : ∃ fields risk, document.toJson = .object fields ∧
    Json.lookup? "meta" fields = some (metaToJson document.info) ∧
    Json.lookup? "features" fields = some (.array (document.features.map featureToJson)) ∧
    Json.lookup? "rules" fields = some (rulesToJson document.rules) ∧
    Json.lookup? "orderPlans" fields = some (.array (document.orderPlans.map planToJson)) ∧
    Json.lookup? "execution" fields = some (executionToJson document.execution) ∧
    Json.lookup? "risk" fields = some (.object risk) ∧
    Json.lookup? "maxRiskPerTrade" risk = some (.float document.maxRisk) ∧
    ∀ field ∈ fields, sections.contains field.1 = true :=
  ⟨_, _, rfl, rfl, rfl, rfl, rfl, rfl, rfl, rfl, by simp [sections]⟩

theorem checkSections_stored {fields : List (String × Json)}
    (known : ∀ field ∈ fields, sections.contains field.1 = true) (path : Json.Path) :
    checkSections ⟨path, (Json.object fields).stored⟩ = .ok () := by
  unfold checkSections
  split
  · next held isStored =>
    have allKnown : held.find? (fun field => !sections.contains field.1) = none := by
      apply List.find?_eq_none.mpr
      intro field among
      obtain ⟨original, member, same⟩ := Json.mem_stored_object isStored among
      rw [same, known original member]
      decide
    rw [allKnown]
  · rfl

theorem validates_document {document : StrategyDocument} (storable : document.IsStorable) :
    Validates (fun place => validate place.value) document.toJson document.IsSound document := by
  obtain ⟨fields, risk, isObject, hasMeta, hasFeatures, hasRules, hasPlans, hasExecution, hasRisk, hasLimit, known⟩ :=
    toJson_fields document
  rw [isObject]
  refine ⟨fun _ => ?_, fun _ => Json.stored_object_ne_null _⟩
  refine Gives.step (asObject_stored [] fields) (Gives.step (checkSections_stored known []) ?_)
  rw [place_field?_stored hasFeatures (Json.stored_array_ne_null _),
    place_field?_stored hasExecution (Json.stored_object_ne_null _)]
  have maxRisk : Gives (do
      let risk ← (← Place.field ⟨[], (Json.object fields).stored⟩ "risk").asObject
      let maxRisk ← (← risk.field "maxRiskPerTrade").asPositive
      return { document with maxRisk })
      ((document.maxRisk.isFinite = true ∧ 0.0 < document.maxRisk) ∧ True) document :=
    Gives.field hasRisk (fun _ => Json.stored_object_ne_null _) (Gives.step (asObject_stored ..)
      ((Place.validates_positive document.maxRisk).field hasLimit fun _ => .pure document))
  have info := validates_meta document.info
  have rules := validates_rules document.rules
  have execution := validates_execution storable.timeout
  have infoObject (path : Json.Path) : Place.asObject ⟨path, (metaToJson document.info).stored⟩ =
      .ok ⟨path, (metaToJson document.info).stored⟩ := asObject_stored path _
  have rulesObject (path : Json.Path) : Place.asObject ⟨path, (rulesToJson document.rules).stored⟩ =
      .ok ⟨path, (rulesToJson document.rules).stored⟩ := asObject_stored path _
  -- From here on only what the readers give counts, not the forms that they read.
  generalize metaToJson document.info = infoJson at hasMeta info infoObject
  generalize rulesToJson document.rules = rulesJson at hasRules rules rulesObject
  generalize executionToJson document.execution = executionJson at hasExecution execution ⊢
  refine (Gives.field hasMeta (fun sound => info.present sound.1) (Gives.step (infoObject _)
    ((info.gives _).bind fun _ => ((validates_features storable.params).gives _).bind fun _ =>
    Gives.field hasRules (fun sound => rules.present sound.1) (Gives.step (rulesObject _)
    ((rules.gives _).bind fun _ => (validates_plans document.info.symbol document.orderPlans).field hasPlans fun _ =>
    (execution.gives _).bind fun _ => maxRisk))))).congr ?_
  constructor
  · rintro ⟨info, ⟨features, featureNames⟩, rules, ⟨hasPlan, orderPlans, planIds⟩, timeout, maxRisk, _⟩
    exact { info, features, featureNames, rules, hasPlan, orderPlans, planIds, timeout, maxRisk }
  · intro sound
    exact ⟨sound.info, ⟨sound.features, sound.featureNames⟩, sound.rules,
      ⟨sound.hasPlan, sound.orderPlans, sound.planIds⟩, sound.timeout, sound.maxRisk, trivial⟩

end StrategyDocument

end TradingStrategy

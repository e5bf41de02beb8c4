import TradingStrategy.Proofs.Document.Serialization
import TradingStrategy.Proofs.Document.Values
import TradingStrategy.Proofs.Strategy.Replay

/-!
The image of the validation.

Owns:
- that the lenient reading finds a sound document in its stored form, part by part;
- `validate_image`: the validated documents are the sound ones.
-/

namespace TradingStrategy.StrategyDocument

open Strategy (variedParams)

/-! ### The lenient reading -/

theorem number?_stored {x : Float} (finite : x.isFinite = true) : (Json.float x).stored.number? = some x := by
  rw [Json.stored_float, if_pos finite]
  rfl

theorem ofJson?_price {price : PriceSpec} (finite : price.IsFinite) :
    PriceSpec.ofJson? price.toJson.stored = some price := by
  cases price with
  | literal value =>
    rw [PriceSpec.toJson, Json.stored_float, if_pos (finite value rfl)]
    rfl
  | expression text => rfl

theorem metaOfJson?_stored (info : StrategyMeta) : metaOfJson? (metaToJson info).stored = some info := by
  obtain ⟨fields, isObject, hasName, hasSymbol, hasTimeframe⟩ := metaToJson_fields info
  simp [metaOfJson?, isObject, Json.record?_stored, hasName, hasSymbol, hasTimeframe, Json.string?,
    Strategy.choice_timeframe]

theorem featureOfJson?_stored {feature : FeatureDeclaration} (freeForm : feature.params.IsFreeForm) :
    featureOfJson? (featureToJson feature).stored = some feature := by
  obtain ⟨fields, isObject, hasName, hasKind, hasParams⟩ := featureToJson_fields feature
  have params : (((Json.lookup? "params" fields).map Json.stored).getD .null).canonical = feature.params := by
    have held : ((Json.lookup? "params" fields).map Json.stored).getD .null =
        ((Json.lookup? "params" fields).getD .null).stored := by
      cases Json.lookup? "params" fields <;> rfl
    rw [held, hasParams, freeForm.stored, freeForm.canonical]
  simp [featureOfJson?, isObject, Json.record?_stored, hasName, hasKind, params, Json.string?, FeatureKind.choice]

theorem rulesOfJson?_stored (rules : Rules) : rulesOfJson? (rulesToJson rules).stored = some rules := by
  obtain ⟨fields, isObject, hasArm, hasTrigger, hasInvalidate⟩ := rulesToJson_fields rules
  have conditions : conditionsOfJson? (Json.object [("when_any", .array (rules.invalidate.map .string))]).stored =
      some rules.invalidate := Json.list?_stored fun _ _ => rfl
  simp [rulesOfJson?, isObject, Json.record?_stored, hasArm, hasTrigger, hasInvalidate, conditions, Json.string?,
    orDefault]

theorem targetOfJson?_stored {target : TargetDeclaration} (sound : target.IsSound) :
    targetOfJson? (targetToJson target).stored = some target := by
  obtain ⟨fields, isObject, hasPrice, hasRatio⟩ := targetToJson_fields target
  simp [targetOfJson?, isObject, Json.record?_stored, hasPrice, hasRatio, ofJson?_price sound.finite.1,
    number?_stored sound.finite.2]

theorem planOfJson?_stored {plan : PlanDeclaration} (sound : plan.IsSound) :
    planOfJson? (planToJson plan).stored = some plan := by
  obtain ⟨fields, isObject, hasId, hasSymbol, hasSide, hasZone, hasQuantity, hasStop, hasTargets⟩ :=
    planToJson_fields plan
  have zone : (Json.array [plan.zoneLow.toJson, plan.zoneHigh.toJson]).stored =
      .array [plan.zoneLow.toJson.stored, plan.zoneHigh.toJson.stored] := Json.stored_array _
  have targets : Json.list? targetOfJson? (Json.array (plan.targets.map targetToJson)).stored = some plan.targets :=
    Json.list?_stored fun target member => targetOfJson?_stored (sound.targets target member)
  simp [planOfJson?, isObject, Json.record?_stored, hasId, hasSymbol, hasSide, hasZone, hasQuantity, hasStop,
    hasTargets, Json.string?, Side.choice, zone, ofJson?_price sound.zoneLow.finite,
    ofJson?_price sound.zoneHigh.finite, number?_stored sound.quantity.1, ofJson?_price sound.stop.finite, targets]

theorem executionOfJson?_stored {execution : Execution} (fits : execution.entryTimeoutBars ≤ Json.limit32) :
    executionOfJson? (executionToJson execution).stored = some execution := by
  obtain ⟨fields, isObject, hasTimeout, hasFlag⟩ := executionToJson_fields execution
  simp [executionOfJson?, isObject, Json.record?_stored, hasTimeout, hasFlag, orDefault, Json.nat?, Json.bool?, fits]

/-- A sound document is found again by types alone. -/
theorem ofJson?_serialized {document : StrategyDocument} (storable : document.IsStorable) (sound : document.IsSound) :
    ofJson? document.serialized = some document := by
  obtain ⟨fields, risk, isObject, hasMeta, hasFeatures, hasRules, hasPlans, hasExecution, hasRisk, hasLimit, _⟩ :=
    toJson_fields document
  have features : Json.list? featureOfJson? (Json.array (document.features.map featureToJson)).stored =
      some document.features := Json.list?_stored fun feature member =>
    featureOfJson?_stored (storable.params feature member)
  have plans : Json.list? planOfJson? (Json.array (document.orderPlans.map planToJson)).stored =
      some document.orderPlans := Json.list?_stored fun plan member => planOfJson?_stored (sound.orderPlans plan member)
  have maxRisk : riskOfJson? (Json.object risk).stored = some document.maxRisk := by
    simp [riskOfJson?, Json.record?_stored, hasLimit, number?_stored sound.maxRisk.1]
  simp [ofJson?, serialized, isObject, Json.record?_stored, hasMeta, hasFeatures, hasRules, hasPlans, hasExecution,
    hasRisk, orDefault, metaOfJson?_stored, features, rulesOfJson?_stored, plans,
    executionOfJson?_stored storable.timeout, maxRisk]

/-! ### The image of the validation -/

theorem toJson_fits {document : StrategyDocument} (storable : document.IsStorable) :
    document.toJson.AllScalars Json.Fits := by
  have prices (price : PriceSpec) : price.toJson.AllScalars Json.Fits := by
    cases price <;> simp [PriceSpec.toJson]
  have features : ∀ feature ∈ document.features, (featureToJson feature).AllScalars Json.Fits := by
    intro feature member
    have params := (storable.params feature member).whole
    by_cases null : feature.params = .null
    · simp [featureToJson, null, Json.fieldUnlessNull]
    · simp [featureToJson, Json.fieldUnlessNull_of_ne null, params]
  have timeout := Json.is64Bit_of_le storable.timeout
  simpa [toJson, metaToJson, rulesToJson, planToJson, targetToJson, executionToJson, prices, timeout] using features

theorem validate_storable {json : Json} {document : StrategyDocument} (freeForm : json.IsFreeForm)
    (valid : validate json = .ok document) : document.IsStorable := by
  refine ⟨fun feature member => ?_, validate_timeout_le valid⟩
  rcases validate_params valid feature member with isNull | ⟨features, item, inItem, inFeatures, inDocument⟩
  · rw [isNull]
    exact Json.freeForm_null
  · exact ((freeForm.part inDocument).part inFeatures).part inItem

/-- Whatever is validated is sound and can be stored. What is stored of a document that can be is validated as the
document exactly if the document is sound, and then the document is also found in it by types alone. -/
theorem validate_image :
    (∀ json document, validate json = .ok document → document.IsSound ∧ (json.IsFreeForm → document.IsStorable)) ∧
    ∀ document : StrategyDocument, document.IsStorable → document.serialized.IsFreeForm ∧
      (validate document.serialized = .ok document ↔ document.IsSound) ∧
      (document.IsSound → ofJson? document.serialized = some document) := by
  refine ⟨fun json document valid => ⟨validate_sound valid, fun freeForm => validate_storable freeForm valid⟩, ?_⟩
  intro document storable
  have read := (validates_document storable).gives [] document
  exact ⟨Json.stored_freeForm (toJson_fits storable), read.trans (and_iff_left rfl), ofJson?_serialized storable⟩

/-- A document that leaves out what it can, and that uses the other spelling of its conditions. -/
def sparseDocument : Json :=
  .object [
    ("features", .array [
      .object [("name", .string "close"), ("params", .null), ("type", .string "builtin")],
      .object [("name", .string "ema_20"), ("params", variedParams), ("type", .string "indicator")]]),
    ("meta", .object [("name", .string "sparse"), ("symbol", .string "ACME"), ("timeframe", .string "1h")]),
    ("orderPlans", .array [.object [
      ("entryZone", .array [.int 99, .string "ema_20"]), ("id", .string "primary"), ("qty", .int 10),
      ("side", .string "sell"), ("stopPrice", .float 104.5), ("symbol", .null),
      ("targets", .array [
        .object [("price", .int 90), ("ratioOfPosition", .float 0.25)],
        .object [("price", .string "entry - 20"), ("ratioOfPosition", .float 0.75)]])]]),
    ("risk", .object [("maxRiskPerTrade", .int 100)]),
    ("rules", .object [
      ("arm", .string "close < ema_20"),
      ("invalidate", .object [("whenAny", .array [.string "close > stop"])]),
      ("trigger", .string "close < entry")])]

set_option maxRecDepth 100000 in
theorem sparse_image : ∃ document, validate sparseDocument = .ok document ∧ document.IsSound ∧
    validate document.serialized = .ok document ∧ ofJson? document.serialized = some document ∧
    validate { document with maxRisk := 1.0 / 0.0 }.serialized ≠ .ok { document with maxRisk := 1.0 / 0.0 } := by
  have freeForm : sparseDocument.IsFreeForm := by
    have finite : (0.5 : Float).isFinite = true ∧ (104.5 : Float).isFinite = true ∧ (0.25 : Float).isFinite = true ∧
        (0.75 : Float).isFinite = true := by decide
    exact ⟨rfl, by simp [sparseDocument, variedParams, Json.Is64Bit],
      by simpa [sparseDocument, variedParams, Json.IsFinite] using finite⟩
  have accepted : (validate sparseDocument).toOption.any (fun _ => true) = true := by decide +kernel
  obtain ⟨document, valid, _⟩ := ok_of_any accepted
  obtain ⟨read, stored⟩ := validate_image
  obtain ⟨sound, storable⟩ := read sparseDocument document valid
  obtain ⟨_, validated, found⟩ := stored document (storable freeForm)
  have unlimited : ({ document with maxRisk := 1.0 / 0.0 } : StrategyDocument).IsStorable :=
    ⟨(storable freeForm).params, (storable freeForm).timeout⟩
  refine ⟨document, valid, sound, validated.mpr sound, found sound, fun again => ?_⟩
  have finite : (1.0 / 0.0 : Float).isFinite = true := ((stored _ unlimited).2.1.mp again).maxRisk.1
  exact absurd finite (by decide)

end TradingStrategy.StrategyDocument

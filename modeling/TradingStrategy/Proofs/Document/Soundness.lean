import Mathlib.Data.List.Nodup
import TradingStrategy.Proofs.Document.Sections
import TradingStrategy.Proofs.Number.Sums

/-!
Sound documents.

Owns:
- what a sound document is, part by part: texts that say something, names that can be used and are used once, numbers
  in their ranges;
- `validate_sound`: a validated document is sound.
-/

namespace TradingStrategy

open StrategyDocument (ratioSum maxRatioSum)

/-! ### Sound parts -/

structure StrategyMeta.IsSound (info : StrategyMeta) : Prop where
  name : Text.isBlankText info.name = false
  symbol : Text.isBlankText info.symbol = false

/-- A declared feature has a name that expressions can use, and a builtin one is there. -/
structure FeatureDeclaration.IsSound (feature : FeatureDeclaration) : Prop where
  name : isIdentifier feature.name = true
  builtin : feature.kind = .builtin → isBuiltin feature.name = true

structure Rules.IsSound (rules : Rules) : Prop where
  arm : Text.isBlankText rules.arm = false
  trigger : Text.isBlankText rules.trigger = false
  invalidate : ∀ condition ∈ rules.invalidate, Text.isBlankText condition = false

/-- A price that is a number is finite and positive. -/
def PriceSpec.IsSound : PriceSpec → Prop
  | literal value => value.isFinite = true ∧ 0.0 < value
  | expression text => Text.isBlankText text = false

/-- Of two prices that are numbers, the first is at most the second. -/
def PriceSpec.InOrder (low high : PriceSpec) : Prop :=
  ∀ l h, low = .literal l → high = .literal h → l ≤ h

structure TargetDeclaration.IsSound (target : TargetDeclaration) : Prop where
  price : target.price.IsSound
  ratio : 0.0 ≤ target.ratio ∧ target.ratio ≤ 1.0

/-- The values of an order plan are in their ranges, and its targets together take no more than the position. -/
structure PlanDeclaration.IsSound (plan : PlanDeclaration) : Prop where
  id : Text.isBlankText plan.id = false
  symbol : Text.isBlankText plan.symbol = false
  zoneLow : plan.zoneLow.IsSound
  zoneHigh : plan.zoneHigh.IsSound
  inOrder : plan.zoneLow.InOrder plan.zoneHigh
  quantity : plan.quantity.isFinite = true ∧ 0.0 < plan.quantity
  stop : plan.stop.IsSound
  hasTarget : plan.targets ≠ []
  targets : ∀ target ∈ plan.targets, target.IsSound
  ratios : ratioSum plan.targets ≤ maxRatioSum

/-- Every part of a document is sound, and features and order plans can be told apart. -/
structure StrategyDocument.IsSound (document : StrategyDocument) : Prop where
  info : document.info.IsSound
  features : ∀ feature ∈ document.features, feature.IsSound
  featureNames : document.featureNames.Nodup
  rules : document.rules.IsSound
  hasPlan : document.orderPlans ≠ []
  orderPlans : ∀ plan ∈ document.orderPlans, plan.IsSound
  planIds : (document.orderPlans.map PlanDeclaration.id).Nodup
  timeout : 1 ≤ document.execution.entryTimeoutBars
  maxRisk : document.maxRisk.isFinite = true ∧ 0.0 < document.maxRisk

/-! ### Values -/

namespace Place

variable {place : Place}

theorem asString_notBlank {text : String} (read : place.asString = .ok text) : Text.isBlankText text = false := by
  unfold asString at read
  split at read
  · split at read
    · contradiction
    · next notBlank =>
      rw [← Except.ok.inj read]
      exact Bool.eq_false_of_not_eq_true notBlank
  · contradiction

theorem asNumber_finite {value : Float} (read : place.asNumber = .ok value) : value.isFinite = true := by
  unfold asNumber at read
  split at read
  · split at read
    · next finite =>
      rw [← Except.ok.inj read]
      exact finite
    · contradiction
  · contradiction

theorem asPositive_sound {value : Float} (read : place.asPositive = .ok value) :
    value.isFinite = true ∧ 0.0 < value := by
  unfold asPositive at read
  obtain ⟨number, isNumber, read⟩ := bind_eq_ok read
  split at read
  · contradiction
  · next above =>
    rw [← Except.ok.inj read]
    have finite := asNumber_finite isNumber
    exact ⟨finite, (Number.pos_iff_not_le finite).mpr above⟩

theorem asPrice_sound {price : PriceSpec} (read : place.asPrice = .ok price) : price.IsSound := by
  unfold asPrice at read
  split at read
  · split at read
    · contradiction
    · next notBlank =>
      rw [← Except.ok.inj read]
      exact Bool.eq_false_of_not_eq_true notBlank
  · split at read
    · split at read
      · next positive =>
        rw [← Except.ok.inj read]
        exact ⟨(Bool.and_eq_true_iff.mp positive).1, of_decide_eq_true (Bool.and_eq_true_iff.mp positive).2⟩
      · contradiction
    · contradiction

end Place

namespace StrategyDocument

/-! ### Order plans -/

/-- The ratios of targets add up to a number, if not to a finite one. -/
theorem isNumber_ratioSum {targets : List TargetDeclaration}
    (finite : ∀ target ∈ targets, target.ratio.isFinite = true) : Number.IsNumber (ratioSum targets) := by
  have grows : ∀ total, Number.IsNumber total →
      Number.IsNumber (targets.foldl (fun total target => total + target.ratio) total) := by
    induction targets with
    | nil => exact fun total isNumber => isNumber
    | cons first others inductionHypothesis =>
      obtain ⟨finiteFirst, finiteOthers⟩ := List.forall_mem_cons.mp finite
      intro total isNumber
      exact inductionHypothesis finiteOthers _ (Number.isNumber_add isNumber finiteFirst)
  exact grows 0.0 Number.isNumber_zero

/-- Targets whose ratios are sound are not refused together exactly if their ratios add up to no more than they may. -/
theorem ratioSum_le_iff {targets : List TargetDeclaration} (sound : ∀ target ∈ targets, target.IsSound) :
    ratioSum targets ≤ maxRatioSum ↔ ¬maxRatioSum < ratioSum targets :=
  Number.le_iff_not_lt
    (isNumber_ratioSum fun target member =>
      have inRange := (sound target member).ratio
      Number.finite_of_ratio inRange.1 inRange.2)
    (Number.isNumber_of_finite (by decide))

/-- Two sound prices are not refused as a zone exactly if they are in order. -/
theorem inOrder_literals {low high : Float} (lowSound : (PriceSpec.literal low).IsSound)
    (highSound : (PriceSpec.literal high).IsSound) :
    (PriceSpec.literal low).InOrder (.literal high) ↔ ¬high < low := by
  rw [← Number.le_iff_not_lt (Number.isNumber_of_finite lowSound.1) (Number.isNumber_of_finite highSound.1)]
  constructor
  · exact fun inOrder => inOrder low high rfl rfl
  · rintro atMost l h ⟨rfl⟩ ⟨rfl⟩
    exact atMost

theorem readZone_sound {place : Place} {low high : PriceSpec} (read : readZone place = .ok (low, high)) :
    low.IsSound ∧ high.IsSound ∧ low.InOrder high := by
  unfold readZone at read
  obtain ⟨items, _, read⟩ := bind_eq_ok read
  split at read
  · obtain ⟨first, isFirst, read⟩ := bind_eq_ok read
    obtain ⟨second, isSecond, read⟩ := bind_eq_ok read
    have firstSound := Place.asPrice_sound isFirst
    have secondSound := Place.asPrice_sound isSecond
    split at read
    · split at read
      · contradiction
      · next notBelow =>
        obtain ⟨rfl, rfl⟩ := Prod.mk.inj (Except.ok.inj read)
        exact ⟨firstSound, secondSound, (inOrder_literals firstSound secondSound).mpr notBelow⟩
    · next notLiterals =>
      obtain ⟨rfl, rfl⟩ := Prod.mk.inj (Except.ok.inj read)
      exact ⟨firstSound, secondSound, fun l h isLow isHigh => absurd isHigh (notLiterals l h isLow)⟩
  · contradiction

theorem readTarget_sound {item : Place} {target : TargetDeclaration} (read : readTarget item = .ok target) :
    target.IsSound := by
  have fields := readTarget_fields read
  obtain ⟨_, _, price⟩ := fields.price
  exact ⟨Place.asPrice_sound price, fields.inRange⟩

/-- The symbol of a plan is given, or it is the sound symbol of the strategy. -/
theorem readSymbol_notBlank {place : Place} {default symbol : String} (sound : Text.isBlankText default = false)
    (read : readSymbol place default = .ok symbol) : Text.isBlankText symbol = false := by
  unfold readSymbol at read
  split at read
  · exact Place.asString_notBlank read
  · rw [← Except.ok.inj read]
    exact sound

theorem readPlan_sound {symbol : String} {item : Place} {plan : PlanDeclaration}
    (sound : Text.isBlankText symbol = false) (read : readPlan symbol item = .ok plan) : plan.IsSound := by
  obtain ⟨⟨_, id⟩, ⟨_, isSymbol⟩, ⟨_, zone⟩, ⟨_, quantity⟩, ⟨_, stop⟩, ⟨items, nonempty, targets⟩, ratios⟩ :=
    readPlan_parts read
  obtain ⟨zoneLow, zoneHigh, inOrder⟩ := readZone_sound zone
  have targetsSound := mapM_all (fun _ _ => readTarget_sound) targets
  exact {
    id := Place.asString_notBlank id
    symbol := readSymbol_notBlank sound isSymbol
    zoneLow
    zoneHigh
    inOrder
    quantity := Place.asPositive_sound quantity
    stop := Place.asPrice_sound stop
    hasTarget := mapM_ne_nil nonempty targets
    targets := targetsSound
    ratios := (ratioSum_le_iff targetsSound).mpr ratios }

/-! ### Values that are told apart -/

theorem nodup_appended {α : Type} {key : α → String} {before : List α} {value : α} :
    ((before ++ [value]).map key).Nodup ↔ (before.map key).Nodup ∧ key value ∉ before.map key := by
  rw [List.map_append, List.map_singleton, ← List.concat_eq_append, List.nodup_concat, and_comm]

/-- Values that are read one after another, each with a key that is new, have distinct keys. -/
theorem appended_nodup {α : Type} {key : α → String} {step : List α → Place → Except SchemaError α}
    (new : ∀ before item value, step before item = .ok value → key value ∉ before.map key) {items : List Place}
    {before values : List α}
    (read : items.foldlM (fun before item => do return before ++ [← step before item]) before = .ok values)
    (distinct : (before.map key).Nodup) : (values.map key).Nodup := by
  induction items generalizing before with
  | nil =>
    rw [← Except.ok.inj read]
    exact distinct
  | cons first rest inductionHypothesis =>
    rw [List.foldlM_cons] at read
    obtain ⟨between, readFirst, readRest⟩ := bind_eq_ok read
    obtain ⟨value, isValue, appended⟩ := bind_eq_ok readFirst
    apply inductionHypothesis readRest
    rw [← Except.ok.inj appended]
    exact nodup_appended.mpr ⟨distinct, new before first value isValue⟩

theorem readFeature_sound {before : List FeatureDeclaration} {item : Place} {feature : FeatureDeclaration}
    (read : readFeature before item = .ok feature) :
    feature.IsSound ∧ feature.name ∉ before.map FeatureDeclaration.name := by
  unfold readFeature at read
  obtain ⟨place, _, read⟩ := bind_eq_ok read
  obtain ⟨namePlace, _, read⟩ := bind_eq_ok read
  obtain ⟨name, _, read⟩ := bind_eq_ok read
  split at read
  · contradiction
  · next isIdentifier =>
    obtain ⟨kindPlace, _, read⟩ := bind_eq_ok read
    obtain ⟨text, _, read⟩ := bind_eq_ok read
    split at read
    · contradiction
    · split at read
      · contradiction
      · next known =>
        split at read
        · contradiction
        · next new =>
          rw [← Except.ok.inj read]
          exact ⟨⟨by simpa using isIdentifier, by simpa using known⟩, by simpa using new⟩

theorem readNextPlan_new {symbol : String} {before : List PlanDeclaration} {item : Place} {plan : PlanDeclaration}
    (read : readNextPlan symbol before item = .ok plan) : plan.id ∉ before.map PlanDeclaration.id := by
  unfold readNextPlan at read
  obtain ⟨found, _, read⟩ := bind_eq_ok read
  split at read
  · contradiction
  · next new =>
    rw [← Except.ok.inj read]
    simpa using new

/-! ### Sections -/

theorem readMeta_sound {place : Place} {info : StrategyMeta} (read : readMeta place = .ok info) : info.IsSound := by
  unfold readMeta at read
  obtain ⟨namePlace, _, read⟩ := bind_eq_ok read
  obtain ⟨name, isName, read⟩ := bind_eq_ok read
  obtain ⟨symbolPlace, _, read⟩ := bind_eq_ok read
  obtain ⟨symbol, isSymbol, read⟩ := bind_eq_ok read
  obtain ⟨timeframePlace, _, read⟩ := bind_eq_ok read
  obtain ⟨text, _, read⟩ := bind_eq_ok read
  split at read
  · rw [← Except.ok.inj read]
    exact ⟨Place.asString_notBlank isName, Place.asString_notBlank isSymbol⟩
  · contradiction

theorem readFeatures_sound {place : Place} {features : List FeatureDeclaration}
    (read : readFeatures place = .ok features) :
    (∀ feature ∈ features, feature.IsSound) ∧ (features.map FeatureDeclaration.name).Nodup := by
  obtain ⟨items, _, read⟩ := bind_eq_ok read
  constructor
  · intro feature member
    rcases (appended_origin read).2 feature member with inNone | ⟨item, _, before, fromItem⟩
    · exact absurd inNone List.not_mem_nil
    · exact (readFeature_sound fromItem).1
  · exact appended_nodup (fun _ _ _ fromItem => (readFeature_sound fromItem).2) read List.nodup_nil

theorem readRules_sound {place : Place} {rules : Rules} (read : readRules place = .ok rules) : rules.IsSound := by
  have fields := readRules_fields read
  obtain ⟨_, _, isArm⟩ := fields.arm
  obtain ⟨_, _, isTrigger⟩ := fields.trigger
  refine ⟨Place.asString_notBlank isArm, Place.asString_notBlank isTrigger, ?_⟩
  rcases fields.invalidate with none | ⟨_, _, _, _, _, _, areConditions⟩
  · rw [none]
    exact fun _ member => absurd member List.not_mem_nil
  · exact mapM_all (fun _ _ => Place.asString_notBlank) areConditions

theorem readPlans_nodup {symbol : String} {place : Place} {plans : List PlanDeclaration}
    (read : readPlans symbol place = .ok plans) : (plans.map PlanDeclaration.id).Nodup := by
  obtain ⟨items, _, read⟩ := bind_eq_ok read
  exact appended_nodup (fun _ _ _ => readNextPlan_new) read List.nodup_nil

/-- A validated document is sound. -/
theorem validate_sound {value : Json} {document : StrategyDocument} (valid : validate value = .ok document) :
    document.IsSound := by
  have read := validate_sections valid
  obtain ⟨_, _, readInfo⟩ := read.info
  obtain ⟨_, _, readRules⟩ := read.rules
  obtain ⟨_, _, readPlans⟩ := read.orderPlans
  obtain ⟨_, _, _, _, readLimit⟩ := read.maxRisk
  have infoSound := readMeta_sound readInfo
  obtain ⟨somePlan, origin⟩ := validate_origin valid
  have featuresSound : (∀ feature ∈ document.features, feature.IsSound) ∧ document.featureNames.Nodup := by
    have readGiven := read.features
    cases given : (Place.mk [] value).field? "features" with
    | none =>
      rw [given] at readGiven
      rw [featureNames, ← Except.ok.inj readGiven]
      exact ⟨fun _ member => absurd member List.not_mem_nil, List.nodup_nil⟩
    | some place =>
      rw [given] at readGiven
      exact readFeatures_sound readGiven
  exact {
    info := infoSound
    features := featuresSound.1
    featureNames := featuresSound.2
    rules := readRules_sound readRules
    hasPlan := somePlan
    orderPlans := fun plan member =>
      have ⟨_, readItem⟩ := origin plan member
      readPlan_sound infoSound.symbol readItem
    planIds := readPlans_nodup readPlans
    timeout := validate_timeout valid
    maxRisk := Place.asPositive_sound readLimit }

end StrategyDocument

end TradingStrategy

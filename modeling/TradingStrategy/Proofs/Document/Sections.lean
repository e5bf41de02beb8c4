import TradingStrategy.Document.Validate
import TradingStrategy.Proofs.Outcome

/-!
Sections of validated documents.

Owns:
- `validate_sections`: each section of a validated document was read from its own place;
- the fields that rules, order plans and targets were read from, and the items that the values of a list were read from;
- that a validated document has an order plan, every order plan a target, every target a part of the position, and an
  entry at least one bar of time.

Does not own the other values that a section may have.
-/

namespace TradingStrategy

/-- The reader of a place that may be missing, with what stands for it then. -/
def readOr {α : Type} (read : Place → Except SchemaError α) (default : α) : Option Place → Except SchemaError α
  | some place => read place
  | none => .ok default

theorem readOr_eq_ok {α β : Type} {place? : Option Place} {read : Place → Except SchemaError α} {default : α}
    {next : α → Except SchemaError β} {value : β}
    (ended : (match place? with
      | some place => read place >>= next
      | none => .ok default >>= next) = .ok value) :
    ∃ inner, readOr read default place? = .ok inner ∧ next inner = .ok value := by
  cases place? with
  | none => exact bind_eq_ok ended
  | some place => exact bind_eq_ok ended

theorem asObject_same {place inner : Place} (isObject : place.asObject = .ok inner) : place = inner := by
  unfold Place.asObject at isObject
  split at isObject
  · exact Except.ok.inj isObject
  · contradiction

namespace StrategyDocument

/-- The sections of a document were read from the fields of a root. -/
structure ReadFrom (root : Place) (document : StrategyDocument) : Prop where
  sections : checkSections root = .ok ()
  info : ∃ place, (root.field "meta" >>= Place.asObject) = .ok place ∧ readMeta place = .ok document.info
  features : readOr readFeatures [] (root.field? "features") = .ok document.features
  rules : ∃ place, (root.field "rules" >>= Place.asObject) = .ok place ∧ readRules place = .ok document.rules
  orderPlans : ∃ place, root.field "orderPlans" = .ok place ∧
    readPlans document.info.symbol place = .ok document.orderPlans
  execution : readOr readExecution .default (root.field? "execution") = .ok document.execution
  maxRisk : ∃ risk place, (root.field "risk" >>= Place.asObject) = .ok risk ∧
    risk.field "maxRiskPerTrade" = .ok place ∧ place.asPositive = .ok document.maxRisk

/-- Every section of a validated document was read from its own place. -/
theorem validate_sections {value : Json} {document : StrategyDocument} (valid : validate value = .ok document) :
    ReadFrom ⟨[], value⟩ document := by
  unfold validate at valid
  obtain ⟨root, isObject, valid⟩ := bind_eq_ok valid
  rw [asObject_same isObject]
  obtain ⟨_, sections, valid⟩ := bind_eq_ok valid
  obtain ⟨metaPlace, isMeta, valid⟩ := bind_eq_ok valid
  obtain ⟨metaObject, isMetaObject, valid⟩ := bind_eq_ok valid
  obtain ⟨info, readInfo, valid⟩ := bind_eq_ok valid
  obtain ⟨features, readFeatures, valid⟩ := readOr_eq_ok valid
  obtain ⟨rulesPlace, isRules, valid⟩ := bind_eq_ok valid
  obtain ⟨rulesObject, isRulesObject, valid⟩ := bind_eq_ok valid
  obtain ⟨rules, readRules, valid⟩ := bind_eq_ok valid
  obtain ⟨plansPlace, isPlans, valid⟩ := bind_eq_ok valid
  obtain ⟨plans, readPlans, valid⟩ := bind_eq_ok valid
  obtain ⟨execution, readExecution, valid⟩ := readOr_eq_ok valid
  obtain ⟨riskPlace, isRisk, valid⟩ := bind_eq_ok valid
  obtain ⟨riskObject, isRiskObject, valid⟩ := bind_eq_ok valid
  obtain ⟨limitPlace, isLimit, valid⟩ := bind_eq_ok valid
  obtain ⟨limit, readLimit, valid⟩ := bind_eq_ok valid
  have same := Except.ok.inj valid
  subst same
  exact {
    sections := sections
    info := ⟨metaObject, by rw [isMeta]; exact isMetaObject, readInfo⟩
    features := readFeatures
    rules := ⟨rulesObject, by rw [isRules]; exact isRulesObject, readRules⟩
    orderPlans := ⟨plansPlace, isPlans, readPlans⟩
    execution := readExecution
    maxRisk := ⟨riskObject, limitPlace, by rw [isRisk]; exact isRiskObject, isLimit, readLimit⟩ }

/-! ### Time-outs -/

theorem readTimeout_pos {place : Place} {bars : Nat} (read : readTimeout place = .ok bars) : 1 ≤ bars := by
  unfold readTimeout at read
  split at read
  · split at read
    · next inRange =>
      rw [← Except.ok.inj read]
      omega
    · contradiction
  · contradiction
  · contradiction

/-- The bars that an entry may take are the default or were read. -/
theorem validate_timeout_origin {value : Json} {document : StrategyDocument} (valid : validate value = .ok document) :
    document.execution.entryTimeoutBars = Execution.default.entryTimeoutBars ∨
      ∃ place, readTimeout place = .ok document.execution.entryTimeoutBars := by
  have read := (validate_sections valid).execution
  cases given : (Place.mk [] value).field? "execution" with
  | none =>
    rw [given] at read
    exact .inl (congrArg Execution.entryTimeoutBars (Except.ok.inj read)).symm
  | some item =>
    rw [given] at read
    have readItem : readExecution item = .ok document.execution := read
    unfold readExecution at readItem
    obtain ⟨place, _, readItem⟩ := bind_eq_ok readItem
    obtain ⟨timeout, isTimeout, readItem⟩ := readOr_eq_ok readItem
    obtain ⟨regularHoursOnly, _, readItem⟩ := readOr_eq_ok readItem
    rw [← Except.ok.inj readItem]
    cases present : place.field? "entryTimeoutBars" with
    | none =>
      rw [present] at isTimeout
      exact .inl (Except.ok.inj isTimeout).symm
    | some place =>
      rw [present] at isTimeout
      exact .inr ⟨place, isTimeout⟩

/-- An entry may take at least one bar. -/
theorem validate_timeout {value : Json} {document : StrategyDocument} (valid : validate value = .ok document) :
    1 ≤ document.execution.entryTimeoutBars := by
  rcases validate_timeout_origin valid with isDefault | ⟨place, read⟩
  · rw [isDefault]
    decide
  · exact readTimeout_pos read

/-! ### Lists that cannot be empty -/

theorem asSomeItems_ne_nil {place : Place} {items : List Place} (read : place.asSomeItems = .ok items) :
    items ≠ [] := by
  unfold Place.asSomeItems at read
  obtain ⟨found, _, read⟩ := bind_eq_ok read
  split at read
  · contradiction
  · next nonempty =>
    rw [← Except.ok.inj read]
    exact nonempty

theorem mapM_ne_nil {α : Type} {read : Place → Except SchemaError α} {items : List Place} {values : List α}
    (nonempty : items ≠ []) (done : items.mapM read = .ok values) : values ≠ [] := by
  cases items with
  | nil => exact absurd rfl nonempty
  | cons first rest =>
    rw [List.mapM_cons] at done
    obtain ⟨value, _, done⟩ := bind_eq_ok done
    obtain ⟨others, _, done⟩ := bind_eq_ok done
    rw [← Except.ok.inj done]
    exact List.cons_ne_nil value others

/-- The values of a list were read from its items, each from the one at its position. -/
theorem mapM_getElem? {α : Type} {read : Place → Except SchemaError α} {items : List Place} {values : List α}
    (done : items.mapM read = .ok values) {index : Nat} {value : α} (stands : values[index]? = some value) :
    ∃ item, items[index]? = some item ∧ read item = .ok value := by
  induction items generalizing values index with
  | nil =>
    rw [← Except.ok.inj done] at stands
    contradiction
  | cons first rest inductionHypothesis =>
    rw [List.mapM_cons] at done
    obtain ⟨head, isHead, done⟩ := bind_eq_ok done
    obtain ⟨tail, isTail, done⟩ := bind_eq_ok done
    rw [← Except.ok.inj done] at stands
    cases index with
    | zero => exact ⟨first, rfl, Option.some.inj stands ▸ isHead⟩
    | succ index => exact inductionHypothesis isTail stands

/-- What a reader gives for every item holds of all values that are read. -/
theorem mapM_all {α : Type} {read : Place → Except SchemaError α} {good : α → Prop}
    (gives : ∀ item value, read item = .ok value → good value) {items : List Place} {values : List α}
    (done : items.mapM read = .ok values) : ∀ value ∈ values, good value := by
  intro value member
  obtain ⟨index, stands⟩ := List.mem_iff_getElem?.mp member
  obtain ⟨item, _, isValue⟩ := mapM_getElem? done stands
  exact gives item value isValue

/-- The values of an order plan were read from its fields, the symbol with what stands for it where it is missing, and
the targets from a list that is not empty. -/
structure PlanReadFrom (symbol : String) (plan : PlanDeclaration) : Prop where
  id : ∃ place : Place, place.asString = .ok plan.id
  symbol : ∃ place, readSymbol place symbol = .ok plan.symbol
  zone : ∃ place, readZone place = .ok (plan.zoneLow, plan.zoneHigh)
  quantity : ∃ place : Place, place.asPositive = .ok plan.quantity
  stop : ∃ place : Place, place.asPrice = .ok plan.stop
  targets : ∃ items : List Place, items ≠ [] ∧ items.mapM readTarget = .ok plan.targets
  ratios : ¬maxRatioSum < ratioSum plan.targets

/-- The fields of an item that the values of an order plan were read from. -/
structure PlanFields (item : Place) (symbol : String) (plan : PlanDeclaration) : Prop where
  id : ∃ place, item.field "id" = .ok place ∧ place.asString = .ok plan.id
  symbol : readSymbol item symbol = .ok plan.symbol
  side : ∃ place, item.field "side" = .ok place ∧ readSide place = .ok plan.side
  zone : ∃ place, item.field "entryZone" = .ok place ∧ readZone place = .ok (plan.zoneLow, plan.zoneHigh)
  quantity : ∃ place, item.field "qty" = .ok place ∧ place.asPositive = .ok plan.quantity
  stop : ∃ place, item.field "stopPrice" = .ok place ∧ place.asPrice = .ok plan.stop
  targets : ∃ place items, item.field "targets" = .ok place ∧ place.asSomeItems = .ok items ∧
    items.mapM readTarget = .ok plan.targets
  ratios : ¬maxRatioSum < ratioSum plan.targets

theorem readPlan_fields {symbol : String} {item : Place} {plan : PlanDeclaration}
    (read : readPlan symbol item = .ok plan) : PlanFields item symbol plan := by
  unfold readPlan at read
  obtain ⟨place, isObject, read⟩ := bind_eq_ok read
  obtain rfl := asObject_same isObject
  obtain ⟨idPlace, isId, read⟩ := bind_eq_ok read
  obtain ⟨id, readId, read⟩ := bind_eq_ok read
  obtain ⟨planSymbol, readSymbol, read⟩ := bind_eq_ok read
  obtain ⟨sidePlace, isSide, read⟩ := bind_eq_ok read
  obtain ⟨side, readSide, read⟩ := bind_eq_ok read
  obtain ⟨zonePlace, isZone, read⟩ := bind_eq_ok read
  obtain ⟨⟨zoneLow, zoneHigh⟩, readZone, read⟩ := bind_eq_ok read
  obtain ⟨quantityPlace, isQuantity, read⟩ := bind_eq_ok read
  obtain ⟨quantity, readQuantity, read⟩ := bind_eq_ok read
  obtain ⟨stopPlace, isStop, read⟩ := bind_eq_ok read
  obtain ⟨stop, readStop, read⟩ := bind_eq_ok read
  obtain ⟨targetsPlace, areTargets, read⟩ := bind_eq_ok read
  obtain ⟨items, areItems, read⟩ := bind_eq_ok read
  obtain ⟨targets, readTargets, read⟩ := bind_eq_ok read
  simp only at read
  split at read
  · contradiction
  · next notAbove =>
    rw [← Except.ok.inj read]
    exact {
      id := ⟨idPlace, isId, readId⟩
      symbol := readSymbol
      side := ⟨sidePlace, isSide, readSide⟩
      zone := ⟨zonePlace, isZone, readZone⟩
      quantity := ⟨quantityPlace, isQuantity, readQuantity⟩
      stop := ⟨stopPlace, isStop, readStop⟩
      targets := ⟨targetsPlace, items, areTargets, areItems, readTargets⟩
      ratios := notAbove }

theorem readPlan_parts {symbol : String} {item : Place} {plan : PlanDeclaration}
    (read : readPlan symbol item = .ok plan) : PlanReadFrom symbol plan := by
  have fields := readPlan_fields read
  obtain ⟨place, items, _, areItems, readTargets⟩ := fields.targets
  exact {
    id := fields.id.imp fun _ => And.right
    symbol := ⟨item, fields.symbol⟩
    zone := fields.zone.imp fun _ => And.right
    quantity := fields.quantity.imp fun _ => And.right
    stop := fields.stop.imp fun _ => And.right
    targets := ⟨items, asSomeItems_ne_nil areItems, readTargets⟩
    ratios := fields.ratios }

theorem readPlan_targets {symbol : String} {item : Place} {plan : PlanDeclaration}
    (read : readPlan symbol item = .ok plan) : plan.targets ≠ [] := by
  obtain ⟨items, nonempty, readTargets⟩ := (readPlan_parts read).targets
  exact mapM_ne_nil nonempty readTargets

/-- The fields of an item that the values of a target were read from. -/
structure TargetFields (item : Place) (target : TargetDeclaration) : Prop where
  price : ∃ place, item.field "price" = .ok place ∧ place.asPrice = .ok target.price
  ratio : ∃ place, item.field "ratioOfPosition" = .ok place ∧ place.asNumber = .ok target.ratio
  inRange : 0.0 ≤ target.ratio ∧ target.ratio ≤ 1.0

theorem readTarget_fields {item : Place} {target : TargetDeclaration} (read : readTarget item = .ok target) :
    TargetFields item target := by
  unfold readTarget at read
  obtain ⟨place, isObject, read⟩ := bind_eq_ok read
  obtain rfl := asObject_same isObject
  obtain ⟨pricePlace, isPrice, read⟩ := bind_eq_ok read
  obtain ⟨price, readPrice, read⟩ := bind_eq_ok read
  obtain ⟨ratioPlace, isRatio, read⟩ := bind_eq_ok read
  obtain ⟨ratio, readRatio, read⟩ := bind_eq_ok read
  split at read
  · next inRange =>
    rw [← Except.ok.inj read]
    exact ⟨⟨pricePlace, isPrice, readPrice⟩, ⟨ratioPlace, isRatio, readRatio⟩, by simpa using inRange⟩
  · contradiction

theorem readPlan_ratios {symbol : String} {item : Place} {plan : PlanDeclaration}
    (read : readPlan symbol item = .ok plan) : ∀ target ∈ plan.targets, 0.0 ≤ target.ratio ∧ target.ratio ≤ 1.0 := by
  obtain ⟨items, _, readTargets⟩ := (readPlan_parts read).targets
  exact mapM_all (fun _ _ read => (readTarget_fields read).inRange) readTargets

/-- The fields of an object that the rules were read from; the conditions may be missing. -/
structure RulesFields (place : Place) (rules : Rules) : Prop where
  arm : ∃ inner, place.field "arm" = .ok inner ∧ inner.asString = .ok rules.arm
  trigger : ∃ inner, place.field "trigger" = .ok inner ∧ inner.asString = .ok rules.trigger
  invalidate : rules.invalidate = [] ∨ ∃ invalidate conditions items, place.field? "invalidate" = some invalidate ∧
    conditions? invalidate = some conditions ∧ conditions.asItems = .ok items ∧
    items.mapM Place.asString = .ok rules.invalidate

theorem readRules_fields {place : Place} {rules : Rules} (read : readRules place = .ok rules) :
    RulesFields place rules := by
  unfold readRules at read
  obtain ⟨armPlace, isArm, read⟩ := bind_eq_ok read
  obtain ⟨arm, readArm, read⟩ := bind_eq_ok read
  obtain ⟨triggerPlace, isTrigger, read⟩ := bind_eq_ok read
  obtain ⟨trigger, readTrigger, read⟩ := bind_eq_ok read
  have withConditions {conditions : List String} (invalidate : conditions = [] ∨ ∃ invalidate list items,
      place.field? "invalidate" = some invalidate ∧ conditions? invalidate = some list ∧ list.asItems = .ok items ∧
      items.mapM Place.asString = .ok conditions) : RulesFields place ⟨arm, trigger, conditions⟩ :=
    ⟨⟨armPlace, isArm, readArm⟩, ⟨triggerPlace, isTrigger, readTrigger⟩, invalidate⟩
  split at read
  · rw [← Except.ok.inj read]
    exact withConditions (.inl rfl)
  · next invalidate isInvalidate =>
    obtain ⟨object, isObject, read⟩ := bind_eq_ok read
    obtain rfl := asObject_same isObject
    split at read
    · rw [← Except.ok.inj read]
      exact withConditions (.inl rfl)
    · next list isList =>
      obtain ⟨items, areItems, read⟩ := bind_eq_ok read
      obtain ⟨conditions, areConditions, read⟩ := bind_eq_ok read
      rw [← Except.ok.inj read]
      exact withConditions (.inr ⟨invalidate, list, items, isInvalidate, isList, areItems, areConditions⟩)

/-- Values that are read one after another come behind those before them, each from the item at its position. -/
theorem appended_getElem? {α : Type} {step : List α → Place → Except SchemaError α} {items : List Place}
    {before values : List α}
    (read : items.foldlM (fun before item => do return before ++ [← step before item]) before = .ok values) :
    ∃ more, values = before ++ more ∧ more.length = items.length ∧
      ∀ {index : Nat} {value : α}, more[index]? = some value →
        ∃ item earlier, items[index]? = some item ∧ step earlier item = .ok value := by
  induction items generalizing before with
  | nil => exact ⟨[], by rw [List.append_nil]; exact (Except.ok.inj read).symm, rfl, fun stands => nomatch stands⟩
  | cons first rest inductionHypothesis =>
    rw [List.foldlM_cons] at read
    obtain ⟨between, readFirst, readRest⟩ := bind_eq_ok read
    obtain ⟨value, isValue, appended⟩ := bind_eq_ok readFirst
    obtain ⟨more, rfl, count, readMore⟩ := inductionHypothesis readRest
    rw [← Except.ok.inj appended]
    refine ⟨value :: more, List.append_assoc _ _ _, congrArg (· + 1) count, ?_⟩
    intro index other stands
    cases index with
    | zero => exact ⟨first, before, rfl, Option.some.inj stands ▸ isValue⟩
    | succ index => exact readMore stands

/-- Such values are as many as there are items, and each was there before or was read from an item. -/
theorem appended_origin {α : Type} {step : List α → Place → Except SchemaError α} {items : List Place}
    {before values : List α}
    (read : items.foldlM (fun before item => do return before ++ [← step before item]) before = .ok values) :
    values.length = before.length + items.length ∧
      ∀ value ∈ values, value ∈ before ∨ ∃ item ∈ items, ∃ earlier, step earlier item = .ok value := by
  obtain ⟨more, rfl, count, readMore⟩ := appended_getElem? read
  refine ⟨by rw [List.length_append, count], ?_⟩
  intro value member
  rcases List.mem_append.mp member with earlier | later
  · exact .inl earlier
  · obtain ⟨index, stands⟩ := List.mem_iff_getElem?.mp later
    obtain ⟨item, before, isItem, fromItem⟩ := readMore stands
    exact .inr ⟨item, List.mem_of_getElem? isItem, before, fromItem⟩

theorem readNextPlan_read {symbol : String} {before : List PlanDeclaration} {item : Place} {plan : PlanDeclaration}
    (read : readNextPlan symbol before item = .ok plan) : readPlan symbol item = .ok plan := by
  unfold readNextPlan at read
  obtain ⟨found, readFound, read⟩ := bind_eq_ok read
  split at read
  · contradiction
  · rw [← Except.ok.inj read]
    exact readFound

/-- A validated document has an order plan, and every order plan was read from an item. -/
theorem validate_origin {value : Json} {document : StrategyDocument} (valid : validate value = .ok document) :
    document.orderPlans ≠ [] ∧
      ∀ plan ∈ document.orderPlans, ∃ item, readPlan document.info.symbol item = .ok plan := by
  obtain ⟨place, _, read⟩ := (validate_sections valid).orderPlans
  unfold readPlans at read
  obtain ⟨items, areItems, read⟩ := bind_eq_ok read
  have someItem := List.length_pos_iff.mpr (asSomeItems_ne_nil areItems)
  obtain ⟨count, origin⟩ := appended_origin read
  constructor
  · apply List.length_pos_iff.mp
    rw [count]
    exact Nat.add_pos_right _ someItem
  · intro plan member
    rcases origin plan member with member | ⟨item, _, _, readItem⟩
    · exact absurd member (List.not_mem_nil)
    · exact ⟨item, readNextPlan_read readItem⟩

/-- A validated document has an order plan, and every order plan a target. -/
theorem validate_plans {value : Json} {document : StrategyDocument} (valid : validate value = .ok document) :
    document.orderPlans ≠ [] ∧ ∀ plan ∈ document.orderPlans, plan.targets ≠ [] := by
  obtain ⟨somePlan, origin⟩ := validate_origin valid
  refine ⟨somePlan, ?_⟩
  intro plan member
  obtain ⟨item, read⟩ := origin plan member
  exact readPlan_targets read

/-- Every target of a validated document takes a part of the position, at least nothing and at most all of it. -/
theorem validate_ratios {value : Json} {document : StrategyDocument} (valid : validate value = .ok document) :
    ∀ plan ∈ document.orderPlans, ∀ target ∈ plan.targets, 0.0 ≤ target.ratio ∧ target.ratio ≤ 1.0 := by
  intro plan member
  obtain ⟨item, read⟩ := (validate_origin valid).2 plan member
  exact readPlan_ratios read

end StrategyDocument

end TradingStrategy

import TradingStrategy.Proofs.Document.Values
import TradingStrategy.Proofs.Strategy.Blueprint
import TradingStrategy.Proofs.Strategy.Replay

/-!
Compiled strategies and their persistent texts.

Owns:
- the expressions of a strategy and the depths at which they stand in its text;
- that a text is nested within the limit of the reader if its expressions are, parameters apart;
- that every compiled strategy can be stored, and that its numbers are finite where those of its expressions are;
- `compiled_text_replays_iff`: the text of a compiled strategy is read back, as the strategy, exactly if each of its
  expressions can be read where it stands;
- `replayed_conditions_lt`: how many conditions a strategy can have that is read back, with a document that has more.

The compiler bounds neither the digits of a literal nor the length of a chain of operators or conditions. A literal of
many digits is infinite and stands in the text as null, and a long chain is nested too deeply for the reader.
-/

namespace TradingStrategy

/-! ### Expressions -/

/-- The condition of a guard, if it has one, with the number of containers that it stands in. -/
def Guard.expressions (around : ℕ) : Guard → List (ℕ × Expr)
  | expression condition => [(around + 1, condition)]
  | _ => []

/-- The expression of a price, if it is not fixed, with the number of containers that it stands in. -/
def PriceSlot.expressions (around : ℕ) : PriceSlot → List (ℕ × Expr)
  | literal _ => []
  | expression price _ _ => [(around + 1, price)]

/-- The expressions of the prices of a plan. -/
def OrderPlan.expressions (plan : OrderPlan) : List (ℕ × Expr) :=
  plan.zoneLow.expressions 4 ++ plan.zoneHigh.expressions 4 ++ plan.stop.expressions 3 ++
    plan.targets.flatMap fun target => target.price.expressions 5

/-- The conditions and the prices of a strategy, each with the number of containers of the text that it stands in. -/
def Strategy.expressions (strategy : Strategy) : List (ℕ × Expr) :=
  strategy.transitions.flatMap (fun transition => transition.guard.expressions 3) ++
    strategy.orderPlans.flatMap OrderPlan.expressions

namespace Expr

/-- With the containers around it, an expression is nested within the limit of the reader. -/
def IsShallow (around : ℕ) (e : Expr) : Prop :=
  around + e.toJson.height < Json.depthLimit

/-- The numbers of an expression are finite. -/
def IsFinite (e : Expr) : Prop :=
  ∀ n ∈ e.numbers, n.isFinite = true

instance (around : ℕ) (e : Expr) : Decidable (e.IsShallow around) :=
  inferInstanceAs (Decidable (_ < _))

instance (e : Expr) : Decidable e.IsFinite :=
  inferInstanceAs (Decidable (∀ n ∈ e.numbers, n.isFinite = true))

/-- Something holds of every expression where it stands. -/
def Each (property : ℕ → Expr → Prop) (expressions : List (ℕ × Expr)) : Prop :=
  ∀ placed ∈ expressions, property placed.1 placed.2

section Each

variable {property : ℕ → Expr → Prop}

@[simp] theorem each_nil : Each property [] := nofun

@[simp] theorem each_singleton (around : ℕ) (e : Expr) : Each property [(around, e)] ↔ property around e :=
  List.forall_mem_singleton

@[simp] theorem each_append (first second : List (ℕ × Expr)) :
    Each property (first ++ second) ↔ Each property first ∧ Each property second :=
  List.forall_mem_append

@[simp] theorem each_flatMap {α : Type} (values : List α) (expressions : α → List (ℕ × Expr)) :
    Each property (values.flatMap expressions) ↔ ∀ value ∈ values, Each property (expressions value) :=
  List.forall_mem_flatMap

end Each

end Expr

open TradingStrategy.Expr (Each IsShallow)

/-! ### Nesting -/

theorem Json.lt_depthLimit {containers : ℕ} (few : containers < 10) : containers < depthLimit :=
  few.trans (by decide)

theorem Guard.height_lt (guard : Guard) :
    3 + guard.toJson.height < Json.depthLimit ↔ Each IsShallow (guard.expressions 3) := by
  cases guard <;> simp [toJson, expressions, IsShallow, Json.around_object_lt, Json.lt_depthLimit]

theorem Action.height_lt (action : Action) : 4 + action.toJson.height < Json.depthLimit := by
  cases action <;> simp [toJson, Json.around_object_lt, Json.lt_depthLimit]

theorem PriceSlot.height_lt {around : ℕ} (outer : around + 1 < Json.depthLimit) (slot : PriceSlot) :
    around + slot.toJson.height < Json.depthLimit ↔ Each IsShallow (slot.expressions around) := by
  cases slot <;> simp [toJson, expressions, IsShallow, Json.around_object_lt, outer]

theorem OrderPlan.height_lt (plan : OrderPlan) :
    2 + plan.toJson.height < Json.depthLimit ↔ Each IsShallow plan.expressions := by
  simp [toJson, Target.toJson, expressions, Json.around_object_lt, Json.around_array_lt, PriceSlot.height_lt,
    Json.lt_depthLimit, and_assoc]

theorem FeatureDescriptor.height_lt {descriptor : FeatureDescriptor}
    (shallow : 3 + descriptor.params.height < Json.depthLimit) : 2 + descriptor.toJson.height < Json.depthLimit := by
  by_cases null : descriptor.params = .null
  · simp [toJson, null, Json.fieldUnlessNull, Json.around_object_lt, Json.around_array_lt, Json.lt_depthLimit]
  · simp [toJson, Json.fieldUnlessNull_of_ne null, shallow, Json.around_object_lt, Json.around_array_lt,
      Json.lt_depthLimit]

/-- A strategy is nested within the limit if its expressions and its parameters are. -/
theorem Strategy.height_lt {strategy : Strategy}
    (params : ∀ descriptor ∈ strategy.featurePlan, 3 + descriptor.params.height < Json.depthLimit) :
    strategy.toJson.height < Json.depthLimit ↔ Each IsShallow strategy.expressions := by
  have descriptors := fun descriptor member => FeatureDescriptor.height_lt (params descriptor member)
  rw [← Nat.zero_add strategy.toJson.height, toJson, Json.around_object_lt]
  simp +contextual [Transition.toJson, expressions, Json.around_object_lt, Json.around_array_lt, Guard.height_lt,
    OrderPlan.height_lt, Action.height_lt, Json.lt_depthLimit, descriptors]

/-! ### Finite numbers -/

/-- Numbers are finite exactly if those of the expressions among them are. -/
def FiniteBy (numbers : List Float) (expressions : List (ℕ × Expr)) : Prop :=
  (∀ n ∈ numbers, n.isFinite = true) ↔ Each (fun _ => Expr.IsFinite) expressions

namespace FiniteBy

theorem ofExpression (around : ℕ) (e : Expr) : FiniteBy e.numbers [(around, e)] := by
  simp [FiniteBy, Expr.IsFinite]

theorem ofFinite {x : Float} (finite : x.isFinite = true) : FiniteBy [x] [] := by
  simp [FiniteBy, finite]

theorem append {numbers others : List Float} {expressions otherExpressions : List (ℕ × Expr)}
    (first : FiniteBy numbers expressions) (second : FiniteBy others otherExpressions) :
    FiniteBy (numbers ++ others) (expressions ++ otherExpressions) := by
  unfold FiniteBy at *
  rw [List.forall_mem_append, Expr.each_append, first, second]

theorem flatMap {α : Type} {values : List α} {numbers : α → List Float} {expressions : α → List (ℕ × Expr)}
    (each : ∀ value ∈ values, FiniteBy (numbers value) (expressions value)) :
    FiniteBy (values.flatMap numbers) (values.flatMap expressions) := by
  unfold FiniteBy at *
  rw [List.forall_mem_flatMap, Expr.each_flatMap]
  exact forall₂_congr each

end FiniteBy

theorem Guard.finiteBy (guard : Guard) (around : ℕ) : FiniteBy guard.numbers (guard.expressions around) := by
  cases guard with
  | expression condition => exact .ofExpression _ condition
  | always | armTimeout | liveOrder => simp [FiniteBy, numbers, expressions]

namespace StrategyDocument

theorem priceSlot_finiteBy {declared : List String} {scope : Scope} {place : Json.Path} {spec : PriceSpec}
    {slot : PriceSlot} (finite : spec.IsFinite) (read : priceSlot declared scope place spec = .ok slot) (around : ℕ) :
    FiniteBy slot.numbers (slot.expressions around) := by
  cases spec with
  | literal value =>
    rw [← Except.ok.inj read]
    exact .ofFinite (finite value rfl)
  | expression text =>
    obtain ⟨e, _, read⟩ := bind_eq_ok read
    rw [← Except.ok.inj read]
    have zero : FiniteBy [0.0] [] := .ofFinite (by decide)
    exact (FiniteBy.ofExpression (around + 1) e).append zero

theorem compilePlan_finiteBy {declared : List String} {index : ℕ} {declaration : PlanDeclaration} {plan : OrderPlan}
    (finite : PlanIsFinite declaration) (compiled : compilePlan declared index declaration = .ok plan) :
    FiniteBy plan.numbers plan.expressions := by
  unfold compilePlan at compiled
  obtain ⟨low, isLow, compiled⟩ := bind_eq_ok compiled
  obtain ⟨high, isHigh, compiled⟩ := bind_eq_ok compiled
  obtain ⟨stop, isStop, compiled⟩ := bind_eq_ok compiled
  obtain ⟨targets, areTargets, compiled⟩ := bind_eq_ok compiled
  rw [← Except.ok.inj compiled]
  have prices := (priceSlot_finiteBy finite.zoneLow isLow 4).append (priceSlot_finiteBy finite.zoneHigh isHigh 4)
  have withStop := (prices.append (.ofFinite finite.quantity)).append (priceSlot_finiteBy finite.stop isStop 3)
  have ofTargets : ∀ target ∈ targets, FiniteBy target.numbers (target.price.expressions 5) := by
    intro target member
    obtain ⟨position, given, isGiven, step⟩ := forEachAt_origin areTargets target member
    obtain ⟨price, isPrice, step⟩ := bind_eq_ok step
    rw [← Except.ok.inj step]
    have ratio : FiniteBy [given.ratio] [] := .ofFinite (finite.targets given isGiven).2
    have whole := (priceSlot_finiteBy (finite.targets given isGiven).1 isPrice 5).append ratio
    rwa [List.append_nil] at whole
  have all := withStop.append (.flatMap ofTargets)
  simpa only [OrderPlan.numbers, OrderPlan.expressions, List.append_nil] using all

end StrategyDocument

/-! ### Compiled strategies -/

theorem Registry.describe?_params {registry : Registry} {name : String} {descriptor : FeatureDescriptor}
    (described : registry.describe? name = some descriptor) : descriptor.params = .null := by
  unfold describe? at described
  split at described
  · rw [← Option.some.inj described]
  · obtain ⟨feature, _, rfl⟩ := Option.map_eq_some_iff.mp described
    rfl

/-- The parameters of an entry of a feature plan are those of its declaration, or there are none. -/
theorem StrategyDocument.withParams_origin {document : StrategyDocument} {descriptor : FeatureDescriptor}
    (none : descriptor.params = .null) : (document.withParams descriptor).params = .null ∨
      ∃ feature ∈ document.features, (document.withParams descriptor).params = feature.params := by
  unfold withParams
  split
  · next feature found => exact .inr ⟨feature, List.mem_of_find?_eq_some found, rfl⟩
  · exact .inl none

namespace Strategy

variable {registry : Registry} {json : Json} {strategy : Strategy}

/-- The parameters of a compiled strategy, if there are any, stand three containers deep in the document. -/
theorem ofDocument_params (compiled : ofDocument registry json = .ok strategy) :
    ∀ descriptor ∈ strategy.featurePlan, descriptor.params = .null ∨
      ∃ features item : Json, descriptor.params.IsPart item ∧ item.IsPart features ∧ features.IsPart json := by
  obtain ⟨document, valid, compiled⟩ := bind_eq_ok compiled
  obtain ⟨plan, resolved, planned⟩ := (StrategyDocument.compile_parts compiled).featurePlan
  have declared := StrategyDocument.validate_params (lift_eq_ok valid)
  rw [planned]
  intro entry member
  obtain ⟨descriptor, inPlan, rfl⟩ := List.mem_map.mp member
  have none := Registry.describe?_params ((Registry.resolvePlan_covers resolved).2 descriptor inPlan)
  rcases StrategyDocument.withParams_origin none with isNull | ⟨feature, among, same⟩
  · exact .inl isNull
  · rw [same]
    exact declared feature among

/-- A compiled strategy can be stored. -/
theorem ofDocument_storable (freeForm : json.IsFreeForm) (compiled : ofDocument registry json = .ok strategy) :
    strategy.IsStorable := by
  have ofParams := ofDocument_params compiled
  obtain ⟨document, valid, compiled⟩ := bind_eq_ok compiled
  have timeout := StrategyDocument.validate_timeout_le (lift_eq_ok valid)
  obtain ⟨_, ⟨arm, trigger, invalidate, _, _, _, transitions⟩, _, _, execution, _⟩ :=
    StrategyDocument.compile_parts compiled
  refine ⟨?params, ?timers, ?timeout⟩
  case params =>
    intro descriptor member
    rcases ofParams descriptor member with isNull | ⟨features, item, inItem, inFeatures, inDocument⟩
    · rw [isNull]
      exact Json.freeForm_null
    · exact ((freeForm.part inDocument).part inFeatures).part inItem
  case timers =>
    rw [transitions]
    simp [StrategyDocument.transitionTable, Action.Fits, timeout]
  case timeout =>
    rw [execution]
    exact timeout

/-- A compiled strategy is nested within the limit where its expressions are. -/
theorem ofDocument_height_lt (shallow : json.height < Json.depthLimit)
    (compiled : ofDocument registry json = .ok strategy) :
    strategy.toJson.height < Json.depthLimit ↔ Each IsShallow strategy.expressions := by
  apply height_lt
  intro descriptor member
  rcases ofDocument_params compiled descriptor member with isNull | ⟨features, item, inItem, inFeatures, inDocument⟩
  · rw [isNull]
    decide
  · have inner := inItem.height_lt
    have middle := inFeatures.height_lt
    have outer := inDocument.height_lt
    omega

/-- The numbers of a compiled strategy are finite where those of its expressions are. -/
theorem ofDocument_finiteBy (compiled : ofDocument registry json = .ok strategy) :
    FiniteBy strategy.numbers strategy.expressions := by
  obtain ⟨document, valid, compiled⟩ := bind_eq_ok compiled
  have valid := lift_eq_ok valid
  have parts := StrategyDocument.compile_parts compiled
  have guards := FiniteBy.flatMap fun transition (_ : transition ∈ strategy.transitions) => transition.guard.finiteBy 3
  have plans : ∀ plan ∈ strategy.orderPlans, FiniteBy plan.numbers plan.expressions := by
    intro plan member
    obtain ⟨index, declaration, declared, step⟩ := StrategyDocument.forEachAt_origin parts.orderPlans plan member
    exact StrategyDocument.compilePlan_finiteBy
      (StrategyDocument.validate_plans_finite valid declaration declared) step
  have maxRisk : FiniteBy [strategy.maxRisk] [] := by
    rw [parts.maxRisk]
    exact .ofFinite (StrategyDocument.validate_maxRisk_finite valid)
  have all := (guards.append (.flatMap plans)).append maxRisk
  rwa [List.append_nil] at all

/-- A document whose scalars can be held is compiled from its pretty text as from its canonical form. -/
theorem ofDocumentText_pretty (holdable : json.AllScalars Json.IsHoldable) (shallow : json.height < Json.depthLimit) :
    ofDocumentText registry json.pretty = ofDocument registry json.canonical := by
  rw [ofDocumentText, Json.readCanonical_pretty holdable shallow]
  rfl

/-- A document that is compiled from a text is of free form, and nested within the limit. -/
theorem ofDocumentText_origin {text : String} (compiled : ofDocumentText registry text = .ok strategy) :
    ∃ json : Json, (json.IsFreeForm ∧ json.height < Json.depthLimit) ∧ ofDocument registry json = .ok strategy := by
  obtain ⟨json, isRead, compiled⟩ := bind_eq_ok compiled
  exact ⟨json, Json.readCanonical_freeForm (lift_eq_ok isRead), compiled⟩

end Strategy

/-- The text of a compiled strategy is read back exactly if each of its conditions and prices is nested, with the
containers around it, within the limit of the reader and has finite numbers only; what is read then is the strategy. -/
theorem compiled_text_replays_iff {registry : Registry} {text : String} {strategy : Strategy}
    (compiled : Strategy.ofDocumentText registry text = .ok strategy) (found : Strategy) :
    Strategy.ofText? strategy.text = some found ↔
      (∀ placed ∈ strategy.expressions, placed.2.IsShallow placed.1 ∧ placed.2.IsFinite) ∧ strategy = found := by
  obtain ⟨json, ⟨freeForm, shallow⟩, compiled⟩ := Strategy.ofDocumentText_origin compiled
  have heights := Strategy.ofDocument_height_lt shallow compiled
  have numbers : (∀ n ∈ strategy.numbers, n.isFinite = true) ↔ Each (fun _ => Expr.IsFinite) strategy.expressions :=
    Strategy.ofDocument_finiteBy compiled
  rw [Strategy.ofText?_text (Strategy.ofDocument_storable freeForm compiled), heights, numbers]
  exact and_congr_left' forall₂_and.symm

set_option maxRecDepth 100000 in
theorem breakout_text_replays :
    ∃ strategy, Strategy.ofDocumentText .empty breakoutDocument.pretty = .ok strategy ∧
      (∀ placed ∈ strategy.expressions, placed.2.IsShallow placed.1 ∧ placed.2.IsFinite) ∧
      Strategy.ofText? strategy.text = some strategy := by
  have holdable : breakoutDocument.AllScalars Json.IsHoldable := by
    simp [breakoutDocument, Json.IsHoldable, Json.IsFinite, Json.Is64Bit]
  have readable : (Strategy.ofDocument .empty breakoutDocument.canonical).toOption.any (fun strategy =>
      decide (∀ placed ∈ strategy.expressions, placed.2.IsShallow placed.1 ∧ placed.2.IsFinite)) = true := by
    decide +kernel
  obtain ⟨strategy, compiled, passes⟩ := ok_of_any readable
  rw [← Strategy.ofDocumentText_pretty holdable (by decide)] at compiled
  have readable := of_decide_eq_true passes
  exact ⟨strategy, compiled, readable, (compiled_text_replays_iff compiled strategy).mpr ⟨readable, rfl⟩⟩

/-! ### Documents with many conditions -/

theorem Strategy.text_lost {registry : Registry} {text : String} {strategy : Strategy}
    (compiled : ofDocumentText registry text = .ok strategy) (deep : Json.depthLimit ≤ strategy.toJson.height) :
    ofText? strategy.text = none := by
  obtain ⟨json, ⟨freeForm, _⟩, compiled⟩ := ofDocumentText_origin compiled
  have storable := ofDocument_storable freeForm compiled
  cases isRead : ofText? strategy.text with
  | none => rfl
  | some found => exact absurd ((ofText?_text storable found).mp isRead).1.1 (not_lt.mpr deep)

theorem Expr.length_le_height_anyOf (conditions : List Expr) :
    conditions.length ≤ (anyOf conditions).toJson.height := by
  have grows : ∀ (rest : List Expr) (first : Expr),
      rest.length + first.toJson.height ≤ (rest.foldl (binary .or) first).toJson.height := by
    intro rest
    induction rest with
    | nil => simp
    | cons next rest inductionHypothesis =>
      intro first
      have further := inductionHypothesis (binary .or first next)
      have isField : (binary .or first next).toJson.field? "left" = some first.toJson := rfl
      have higher := (Json.isPart_of_field isField).height_lt
      rw [List.length_cons, List.foldl_cons]
      omega
  cases conditions with
  | nil => exact Nat.zero_le _
  | cons first rest =>
    have positive : 0 < first.toJson.height := by
      cases first <;> exact Nat.succ_pos _
    have grown := grows rest first
    rw [List.length_cons, anyOf]
    omega

/-- A strategy that is read back has fewer than 124 conditions on which it gives up its position. -/
theorem replayed_conditions_lt {registry : Registry} {text : String} {json : Json} {document : StrategyDocument}
    {strategy found : Strategy} (isRead : Json.readCanonical text = .ok json)
    (valid : StrategyDocument.validate json = .ok document) (compiled : document.compile registry = .ok strategy)
    (replays : Strategy.ofText? strategy.text = some found) :
    document.rules.invalidate.length + 4 < Json.depthLimit := by
  obtain ⟨freeForm, shallow⟩ := Json.readCanonical_freeForm isRead
  have ofJson : Strategy.ofDocument registry json = .ok strategy := by
    rw [Strategy.ofDocument, valid]
    exact compiled
  obtain ⟨arm, trigger, invalidate, _, _, areConditions, transitions⟩ :=
    (StrategyDocument.compile_parts compiled).transitions
  have count := (StrategyDocument.forEachAt_all (fun _ => True) (fun _ _ _ _ => trivial) areConditions).2
  have within := ((Strategy.ofText?_text (Strategy.ofDocument_storable freeForm ofJson) found).mp replays).1.1
  have each := (Strategy.ofDocument_height_lt shallow ofJson).mp within
  have placed : (4, Expr.anyOf invalidate) ∈ strategy.expressions := by
    simp [Strategy.expressions, transitions, StrategyDocument.transitionTable, Guard.expressions]
  have disjunction : 4 + (Expr.anyOf invalidate).toJson.height < Json.depthLimit := each _ placed
  have longer := Expr.length_le_height_anyOf invalidate
  omega

/-- A document whose strategy gives up its position on any of some conditions. -/
def guardedDocument (conditions : List String) : Json :=
  .object [
    ("meta", .object [("name", .string "guarded"), ("symbol", .string "ACME"), ("timeframe", .string "1m")]),
    ("rules", .object [
      ("arm", .string "close > open"),
      ("trigger", .string "close > entry"),
      ("invalidate", .object [("when_any", .array (conditions.map .string))])]),
    ("orderPlans", .array [.object [
      ("id", .string "primary"), ("side", .string "buy"), ("qty", .int 10),
      ("entryZone", .array [.int 99, .int 100]), ("stopPrice", .int 95),
      ("targets", .array [.object [("price", .int 110), ("ratioOfPosition", .int 1)]])]]),
    ("risk", .object [("maxRiskPerTrade", .int 100)])]

set_option maxRecDepth 100000 in
/-- A strategy with 123 conditions is compiled, and lost when its text is read. -/
theorem guarded_text_lost :
    ∃ strategy, Strategy.ofDocumentText .empty (guardedDocument (List.replicate 123 "close < stop")).pretty =
      .ok strategy ∧ Strategy.ofText? strategy.text = none := by
  have holdable : (guardedDocument (List.replicate 123 "close < stop")).AllScalars Json.IsHoldable := by
    simp [guardedDocument, Json.IsHoldable, Json.IsFinite, Json.Is64Bit]
  have deep : (Strategy.ofDocument .empty (guardedDocument (List.replicate 123 "close < stop")).canonical).toOption.any
      (fun strategy => decide (Json.depthLimit ≤ strategy.toJson.height)) = true := by
    decide +kernel
  obtain ⟨strategy, compiled, passes⟩ := ok_of_any deep
  have deep := of_decide_eq_true passes
  rw [← Strategy.ofDocumentText_pretty holdable (by decide)] at compiled
  exact ⟨strategy, compiled, Strategy.text_lost compiled deep⟩

end TradingStrategy

import TradingStrategy.Proofs.Document.Refusals
import TradingStrategy.Proofs.Json.Paths
import TradingStrategy.Strategy.Compile

/-!
Errors in expressions point at the text of the author.

Owns:
- `PointsAt`: a place leads through a document to a text, or it is that of a condition under the wrong spelling;
- where the rules and the prices that are read from a document stand in it;
- `errors_point_at_expressions`: the path of every error in an expression leads to the expression, unless the conditions
  are given under their second spelling: the error names them by the first one.

The places of the compilation are built anew from a document that was read. So what has to be shown is that every text
was read from the place that is built for it, and this goes reader by reader.
-/

namespace TradingStrategy

open Json (Path IsPlainPath IsPlainKey)

theorem FailsWith.forEachAt {ε α β : Type} {property : ε → Prop} {step : Nat → α → Except ε β} {items : List α}
    {start : Nat} (each : ∀ index item, items[index]? = some item → FailsWith property (step (start + index) item)) :
    FailsWith property (StrategyDocument.forEachAt step start items) := by
  induction items generalizing start with
  | nil => exact .ok []
  | cons first rest inductionHypothesis =>
    have ofRest : FailsWith property (StrategyDocument.forEachAt step (start + 1) rest) := by
      apply inductionHypothesis
      intro index item stands
      rw [Nat.add_assoc, Nat.add_comm 1]
      exact each (index + 1) item stands
    exact .bind (each 0 first rfl) fun _ _ => .bind ofRest fun _ _ => .ok _

namespace StrategyDocument

/-! ### Places of expressions -/

/-- A condition is named by the first spelling of the conditions, under which nothing is given, although it stands under
the second one. -/
structure MisnamesCondition (root : Json) (path text : String) : Prop where
  named : ∃ index, path = Json.pathText (conditionPlace index) ∧
    root.at? [.key "rules", .key "invalidate", .key "whenAny", .position index] = some (.string text)
  absent : root.at? [.key "rules", .key "invalidate", .key "when_any"] = none ∨
    root.at? [.key "rules", .key "invalidate", .key "when_any"] = some .null

/-- A place with plain keys leads through a document to a text, or it is that of a condition under the wrong
spelling. -/
structure PointsAt (root : Json) (place : Path) (text : String) : Prop where
  plain : IsPlainPath place
  leads : root.at? place = some (.string text) ∨ MisnamesCondition root (Json.pathText place) text

/-- A price that is an expression stands at a place. -/
def PriceStandsAt (root : Json) (place : Path) (price : PriceSpec) : Prop :=
  ∀ text, price = .expression text → root.at? place = some (.string text)

/-- The prices of an order plan stand below its place. -/
structure PlanStandsAt (root : Json) (place : Path) (plan : PlanDeclaration) : Prop where
  zoneLow : PriceStandsAt root (place ++ [.key "entryZone", .position 0]) plan.zoneLow
  zoneHigh : PriceStandsAt root (place ++ [.key "entryZone", .position 1]) plan.zoneHigh
  stop : PriceStandsAt root (place ++ [.key "stopPrice"]) plan.stop
  targets : ∀ {index : Nat} {target : TargetDeclaration}, plan.targets[index]? = some target →
    PriceStandsAt root (place ++ [.key "targets", .position index, .key "price"]) target.price

variable {root : Json} {place item : Place} {text : String}

theorem rulePlace_plain {name : String} (plain : IsPlainKey name) : IsPlainPath (rulePlace name) := by
  simp only [rulePlace, Json.isPlainPath_key, Json.isPlainPath_nil]
  exact ⟨by decide, plain, trivial⟩

theorem conditionPlace_plain (index : Nat) : IsPlainPath (conditionPlace index) := by
  simp only [conditionPlace, Json.isPlainPath_key, Json.isPlainPath_position]
  decide

theorem planPlace_plain {below : Path} (plain : IsPlainPath below) (index : Nat) :
    IsPlainPath (planPlace index ++ below) := by
  rw [Json.isPlainPath_append, planPlace, Json.isPlainPath_key, Json.isPlainPath_position]
  exact ⟨by decide, plain⟩

theorem targetPlace_plain (index : Nat) : IsPlainPath [.key "targets", .position index, .key "price"] := by
  rw [Json.isPlainPath_key, Json.isPlainPath_position]
  decide

/-- Where nothing is given under the first spelling, its written path does not lead to a text. -/
theorem MisnamesCondition.not_follows {path : String} (misnames : MisnamesCondition root path text) (value : String) :
    root.follow? path ≠ some (.string value) := by
  obtain ⟨index, rfl, _⟩ := misnames.named
  have split : conditionPlace index =
      [.key "rules", .key "invalidate", .key "when_any"] ++ [.position index] := rfl
  rw [Json.follow?_pathText (conditionPlace_plain index), split, Json.at?_append]
  rcases misnames.absent with missing | isNull
  · rw [missing]
    exact nofun
  · rw [isNull]
    exact nofun

/-! ### Where texts were read -/

theorem asPrice_expression (isIn : place.IsIn root) {price : PriceSpec} (read : place.asPrice = .ok price) :
    PriceStandsAt root place.path price := by
  rintro text rfl
  unfold Place.asPrice at read
  split at read
  · next own isString =>
    split at read
    · contradiction
    · rw [← PriceSpec.expression.inj (Except.ok.inj read), ← isString]
      exact isIn
  · split at read
    · split at read
      · exact PriceSpec.noConfusion (Except.ok.inj read)
      · contradiction
    · contradiction

/-- The item of a list at a position stands at this position. -/
theorem asItems_getElem? (isIn : place.IsIn root) {items : List Place} (read : place.asItems = .ok items) {index : Nat}
    (stands : items[index]? = some item) : item.path = place.path ++ [.position index] ∧ item.IsIn root := by
  obtain ⟨values, _, rfl, areIn⟩ := isIn.asItems read
  refine ⟨?_, areIn item (List.mem_of_getElem? stands)⟩
  rw [List.getElem?_map, List.getElem?_zipIdx, Option.map_map] at stands
  obtain ⟨value, _, rfl⟩ := Option.map_eq_some_iff.mp stands
  simp

/-- The conditions were read from their place under the spelling that is used. -/
theorem conditions?_points {invalidate conditions : Place} (isIn : invalidate.IsIn root)
    (path : invalidate.path = [.key "rules", .key "invalidate"]) (found : conditions? invalidate = some conditions)
    {items : List Place} (areItems : conditions.asItems = .ok items) {texts : List String}
    (areTexts : items.mapM Place.asString = .ok texts) {index : Nat} (stands : texts[index]? = some text) :
    PointsAt root (conditionPlace index) text := by
  have conditionsIn := conditions?_isIn isIn found
  obtain ⟨item, isItem, isText⟩ := mapM_getElem? areTexts stands
  obtain ⟨itemPath, itemIn⟩ := asItems_getElem? conditionsIn areItems isItem
  have textStands := itemIn.asString isText
  refine ⟨conditionPlace_plain index, ?_⟩
  rw [conditions?, Option.orElse_eq_orElse, Option.orElse_eq_or, Option.or_eq_some_iff] at found
  rcases found with isField | ⟨missing, isField⟩
  · rw [itemPath, (Place.field?_eq_some isField).1, Place.pathOf, path] at textStands
    exact .inl textStands
  · rw [itemPath, (Place.field?_eq_some isField).1, Place.pathOf, path] at textStands
    have absent := Place.field?_eq_none missing
    have firstSpelling : root.at? [.key "rules", .key "invalidate", .key "when_any"] =
        invalidate.value.field? "when_any" := by
      have step := Json.at?_step isIn (.key "when_any")
      rw [path] at step
      exact step
    exact .inr ⟨⟨index, rfl, textStands⟩, by rw [firstSpelling]; exact absent⟩

/-- The rules were read from their places. -/
theorem readRules_points (isIn : place.IsIn root) (path : place.path = [.key "rules"]) {rules : Rules}
    (read : readRules place = .ok rules) :
    root.at? (rulePlace "arm") = some (.string rules.arm) ∧
      root.at? (rulePlace "trigger") = some (.string rules.trigger) ∧
      ∀ index text, rules.invalidate[index]? = some text → PointsAt root (conditionPlace index) text := by
  have fields := readRules_fields read
  have textStands {key text : String} (isText : ∃ inner, place.field key = .ok inner ∧ inner.asString = .ok text) :
      root.at? (rulePlace key) = some (.string text) := by
    obtain ⟨inner, isField, read⟩ := isText
    have stands := (isIn.field isField).asString read
    rw [Place.field_path isField, path] at stands
    exact stands
  refine ⟨textStands fields.arm, textStands fields.trigger, ?_⟩
  intro index text stands
  rcases fields.invalidate with none | ⟨invalidate, conditions, items, isField, areConditions, areItems, areTexts⟩
  · rw [none] at stands
    contradiction
  · have invalidatePath : invalidate.path = [.key "rules", .key "invalidate"] := by
      rw [(Place.field?_eq_some isField).1, Place.pathOf, path]
      rfl
    exact conditions?_points (isIn.field? isField) invalidatePath areConditions areItems areTexts stands

theorem readZone_stands (isIn : place.IsIn root) {low high : PriceSpec} (read : readZone place = .ok (low, high)) :
    PriceStandsAt root (place.path ++ [.position 0]) low ∧ PriceStandsAt root (place.path ++ [.position 1]) high := by
  unfold readZone at read
  obtain ⟨items, areItems, read⟩ := bind_eq_ok read
  split at read
  · next lowPlace highPlace =>
    have first : [lowPlace, highPlace][0]? = some lowPlace := rfl
    have second : [lowPlace, highPlace][1]? = some highPlace := rfl
    obtain ⟨lowPath, lowIn⟩ := asItems_getElem? isIn areItems first
    obtain ⟨highPath, highIn⟩ := asItems_getElem? isIn areItems second
    obtain ⟨lowRead, isLow, read⟩ := bind_eq_ok read
    obtain ⟨highRead, isHigh, read⟩ := bind_eq_ok read
    have same : (lowRead, highRead) = (low, high) := by
      split at read
      · split at read
        · contradiction
        · exact Except.ok.inj read
      · exact Except.ok.inj read
    obtain ⟨rfl, rfl⟩ := Prod.mk.inj same
    rw [← lowPath, ← highPath]
    exact ⟨asPrice_expression lowIn isLow, asPrice_expression highIn isHigh⟩
  · contradiction

theorem readTarget_stands (isIn : item.IsIn root) {target : TargetDeclaration} (read : readTarget item = .ok target) :
    PriceStandsAt root (item.path ++ [.key "price"]) target.price := by
  obtain ⟨place, isField, isPrice⟩ := (readTarget_fields read).price
  rw [← Place.field_path isField]
  exact asPrice_expression (isIn.field isField) isPrice

theorem readPlan_stands (isIn : item.IsIn root) {symbol : String} {plan : PlanDeclaration}
    (read : readPlan symbol item = .ok plan) : PlanStandsAt root item.path plan := by
  have fields := readPlan_fields read
  obtain ⟨zonePlace, isZone, readZone⟩ := fields.zone
  obtain ⟨stopPlace, isStop, readStop⟩ := fields.stop
  obtain ⟨targetsPlace, items, areTargets, areItems, readTargets⟩ := fields.targets
  obtain ⟨lowStands, highStands⟩ := readZone_stands (isIn.field isZone) readZone
  have stopStands := asPrice_expression (isIn.field isStop) readStop
  rw [Place.field_path isZone, List.append_assoc] at lowStands highStands
  rw [Place.field_path isStop] at stopStands
  refine ⟨lowStands, highStands, stopStands, ?_⟩
  intro index target stands
  obtain ⟨targetItem, isItem, readItem⟩ := mapM_getElem? readTargets stands
  obtain ⟨itemPath, itemIn⟩ := asItems_getElem? (isIn.field areTargets) (Place.asSomeItems_eq_ok areItems) isItem
  have priceStands := readTarget_stands itemIn readItem
  rw [itemPath, Place.field_path areTargets, List.append_assoc, List.append_assoc] at priceStands
  exact priceStands

/-- Every order plan was read from its place. -/
theorem readPlans_stands (isIn : place.IsIn root) (path : place.path = [.key "orderPlans"]) {symbol : String}
    {plans : List PlanDeclaration} (read : readPlans symbol place = .ok plans) {index : Nat} {plan : PlanDeclaration}
    (stands : plans[index]? = some plan) : PlanStandsAt root (planPlace index) plan := by
  unfold readPlans at read
  obtain ⟨items, areItems, read⟩ := bind_eq_ok read
  obtain ⟨more, rfl, _, readMore⟩ := appended_getElem? read
  obtain ⟨item, _, isItem, readItem⟩ := readMore stands
  obtain ⟨itemPath, itemIn⟩ := asItems_getElem? isIn (Place.asSomeItems_eq_ok areItems) isItem
  have planStands := readPlan_stands itemIn (readNextPlan_read readItem)
  rw [itemPath, path] at planStands
  exact planStands

end StrategyDocument

open StrategyDocument

/-! ### Compilation -/

/-- An error in an expression names a place that points at the expression. -/
def CompileError.PointsAtText (root : Json) : CompileError → Prop
  | .parse place text _ | .scope place text _ => PointsAt root place text
  | _ => True

namespace StrategyDocument

variable {root : Json} {declared : List String} {scope : Scope} {place : Path}

theorem lift_points {ε α : Type} (wrap : ε → CompileError) (points : ∀ error, (wrap error).PointsAtText root)
    (outcome : Except ε α) : FailsWith (·.PointsAtText root) (CompileError.lift wrap outcome) := by
  cases outcome with
  | error error => exact .error (points error)
  | ok value => exact .ok value

theorem checkedExpression_points {text : String} (points : PointsAt root place text) :
    FailsWith (·.PointsAtText root) (checkedExpression declared scope place text) :=
  .bind (lift_points (.parse place text) (fun _ => points) _) fun _ _ =>
    .bind (lift_points (.scope place text) (fun _ => points) _) fun _ _ => .ok _

theorem priceSlot_points {price : PriceSpec} (stands : PriceStandsAt root place price) (plain : IsPlainPath place) :
    FailsWith (·.PointsAtText root) (priceSlot declared scope place price) := by
  cases price with
  | literal value => exact .ok _
  | expression text => exact .bind (checkedExpression_points ⟨plain, .inl (stands text rfl)⟩) fun _ _ => .ok _

theorem compilePlan_points {index : Nat} {plan : PlanDeclaration} (stands : PlanStandsAt root (planPlace index) plan) :
    FailsWith (·.PointsAtText root) (compilePlan declared index plan) := by
  refine .bind (priceSlot_points stands.zoneLow (planPlace_plain (by decide) index)) fun low _ => ?_
  refine .bind (priceSlot_points stands.zoneHigh (planPlace_plain (by decide) index)) fun high _ => ?_
  refine .bind (priceSlot_points stands.stop (planPlace_plain (by decide) index)) fun stop _ => ?_
  refine .bind (.forEachAt fun position target isTarget => ?_) fun targets _ => .ok _
  rw [Nat.zero_add]
  have plain := planPlace_plain (targetPlace_plain position) index
  exact .bind (priceSlot_points (stands.targets isTarget) plain) fun _ _ => .ok _

theorem compile_points {registry : Registry} {document : StrategyDocument} (valid : validate root = .ok document) :
    FailsWith (·.PointsAtText root) (document.compile registry) := by
  have sections := validate_sections valid
  have rootIn : (Place.mk [] root).IsIn root := rfl
  obtain ⟨arm, trigger, conditions⟩ : root.at? (rulePlace "arm") = some (.string document.rules.arm) ∧
      root.at? (rulePlace "trigger") = some (.string document.rules.trigger) ∧
      ∀ index text, document.rules.invalidate[index]? = some text → PointsAt root (conditionPlace index) text := by
    obtain ⟨place, isRules, read⟩ := sections.rules
    obtain ⟨field, isField, isObject⟩ := bind_eq_ok isRules
    obtain rfl := asObject_same isObject
    exact readRules_points (rootIn.field isField) (Place.field_path isField) read
  have plans : ∀ index plan, document.orderPlans[index]? = some plan → PlanStandsAt root (planPlace index) plan := by
    obtain ⟨place, isField, read⟩ := sections.orderPlans
    exact fun _ _ => readPlans_stands (rootIn.field isField) (Place.field_path isField) read
  refine .bind (lift_points .registry (fun _ => trivial) _) fun _ _ => ?_
  refine .bind (checkedExpression_points ⟨rulePlace_plain (by decide), .inl arm⟩) fun _ _ => ?_
  refine .bind (checkedExpression_points ⟨rulePlace_plain (by decide), .inl trigger⟩) fun _ _ => ?_
  refine .bind (.forEachAt fun index text isText => ?_) fun _ _ => ?_
  · rw [Nat.zero_add]
    exact checkedExpression_points (conditions index text isText)
  refine .bind (lift_points .registry (fun _ => trivial) _) fun _ _ => ?_
  refine .bind (.forEachAt fun index plan isPlan => ?_) fun _ _ => .ok _
  rw [Nat.zero_add]
  exact compilePlan_points (plans index plan isPlan)

end StrategyDocument

/-- The codes of the errors in expressions. -/
def expressionCodes : List String :=
  ["EXPRESSION_PARSE", "UNDECLARED_IDENTIFIER", "UNKNOWN_FUNCTION"]

/-- An error in an expression has a path and the expression among its details. -/
theorem CompileError.quotes {error : CompileError} (inExpression : error.code ∈ expressionCodes) :
    ∃ place text, (∀ root, error.PointsAtText root → PointsAt root place text) ∧
      error.details.field? "path" = some (.string (Json.pathText place)) ∧
      error.details.field? "expression" = some (.string text) := by
  cases error with
  | notJson | schema => simp [expressionCodes, code] at inExpression
  | registry cause => cases cause <;> simp [expressionCodes, code, RegistryError.code] at inExpression
  | parse place text cause => exact ⟨place, text, fun _ points => points, rfl, rfl⟩
  | scope place text cause =>
    refine ⟨place, text, fun _ points => points, ?_, ?_⟩ <;> cases cause <;> rfl

/-- Whatever a registry knows, every error in an expression of a document quotes the expression and a path, and the path
leads through the document to the expression, unless the expression is a condition that stands under the second spelling
of its list: then the path has the first one and leads to no text. -/
theorem errors_point_at_expressions {registry : Registry} {root : Json} {error : CompileError}
    (refused : Strategy.ofDocument registry root = .error error) (inExpression : error.code ∈ expressionCodes) :
    ∃ path text, error.details.field? "path" = some (.string path) ∧
      error.details.field? "expression" = some (.string text) ∧
      (root.follow? path = some (.string text) ↔ ¬MisnamesCondition root path text) := by
  obtain ⟨place, text, quoted, isPath, isExpression⟩ := error.quotes inExpression
  refine ⟨Json.pathText place, text, isPath, isExpression, ?_⟩
  have points : FailsWith (·.PointsAtText root) (Strategy.ofDocument registry root) := by
    unfold Strategy.ofDocument
    refine .bind (lift_points .schema (fun _ => trivial) _) fun document valid => ?_
    cases outcome : validate root with
    | error cause => rw [outcome] at valid; contradiction
    | ok found =>
      rw [outcome] at valid
      obtain rfl := Except.ok.inj valid
      exact compile_points outcome
  obtain ⟨plain, leads⟩ := quoted root (points error refused)
  constructor
  · exact fun follows misnames => misnames.not_follows text follows
  · intro named
    rw [Json.follow?_pathText plain]
    exact leads.resolve_right named

/-- A document with rules that give up, and one target. -/
def pointedDocument (invalidate price : Json) : Json :=
  .object [
    ("meta", .object [("name", .string "pointed"), ("symbol", .string "ACME"), ("timeframe", .string "5m")]),
    ("rules", .object [("arm", .string "close > open"), ("trigger", .string "close > 0"), ("invalidate", invalidate)]),
    ("orderPlans", .array [.object [
      ("id", .string "primary"), ("side", .string "buy"), ("entryZone", .array [.int 100, .int 101]), ("qty", .int 10),
      ("stopPrice", .int 95), ("targets", .array [.object [("price", price), ("ratioOfPosition", .int 1)]])]]),
    ("risk", .object [("maxRiskPerTrade", .int 100)])]

/-- An error has a code, and a path and an expression among its details. -/
def quotesAt (code path text : String) (error : CompileError) : Bool :=
  error.code == code && (error.details.field? "path").bind Json.string? == some path &&
    (error.details.field? "expression").bind Json.string? == some text

theorem quotesAt_iff {code path text : String} {error : CompileError} :
    quotesAt code path text error = true ↔ error.code = code ∧ error.details.field? "path" = some (.string path) ∧
      error.details.field? "expression" = some (.string text) := by
  have isString (json? : Option Json) (text : String) :
      json?.bind Json.string? = some text ↔ json? = some (.string text) := by
    cases json? with
    | none => simp
    | some json => cases json <;> simp [Json.string?]
  simp only [quotesAt, Bool.and_eq_true, beq_iff_eq, isString, and_assoc]

/-- The name of a price that is not declared is found in the price. -/
theorem undeclared_price_is_found :
    let document := pointedDocument (.object [("when_any", .array [.string "close < open"])]) (.string "peak * 2")
    ∃ error, Strategy.ofDocument .default document = .error error ∧ error.code ∈ expressionCodes ∧
      error.details.field? "path" = some (.string "orderPlans[0].targets[0].price") ∧
      document.follow? "orderPlans[0].targets[0].price" = some (.string "peak * 2") := by
  intro document
  obtain ⟨error, refused, tested⟩ : ∃ error, Strategy.ofDocument .default document = .error error ∧
      quotesAt "UNDECLARED_IDENTIFIER" "orderPlans[0].targets[0].price" "peak * 2" error = true :=
    error_of_test (by decide +kernel)
  obtain ⟨isCode, isPath, isExpression⟩ := quotesAt_iff.mp tested
  have inExpression : error.code ∈ expressionCodes := by
    rw [isCode]
    decide
  obtain ⟨path, text, pathToo, textToo, leads⟩ := errors_point_at_expressions refused inExpression
  obtain rfl := Json.string.inj (Option.some.inj (isPath.symm.trans pathToo))
  obtain rfl := Json.string.inj (Option.some.inj (isExpression.symm.trans textToo))
  have named : ¬MisnamesCondition document "orderPlans[0].targets[0].price" "peak * 2" := by
    intro misnames
    have given : document.at? [.key "rules", .key "invalidate", .key "when_any"] =
        some (.array [.string "close < open"]) := rfl
    have absent := misnames.absent
    rw [given] at absent
    simp at absent
  exact ⟨error, refused, inExpression, isPath, leads.mpr named⟩

/-- The second one of the conditions under their second spelling cannot be read, and its error leads to no text. -/
theorem misnamed_condition_is_not_found :
    let conditions := Json.array [.string "close < open", .string "close <"]
    let document := pointedDocument (.object [("whenAny", conditions)]) (.int 110)
    ∃ error, Strategy.ofDocument .default document = .error error ∧ error.code = "EXPRESSION_PARSE" ∧
      error.details.field? "path" = some (.string "rules.invalidate.when_any[1]") ∧
      error.details.field? "expression" = some (.string "close <") ∧
      document.follow? "rules.invalidate.when_any[1]" = none ∧
      document.follow? "rules.invalidate.whenAny[1]" = some (.string "close <") := by
  intro conditions document
  obtain ⟨error, refused, tested⟩ : ∃ error, Strategy.ofDocument .default document = .error error ∧
      quotesAt "EXPRESSION_PARSE" "rules.invalidate.when_any[1]" "close <" error = true :=
    error_of_test (by decide +kernel)
  obtain ⟨isCode, isPath, isExpression⟩ := quotesAt_iff.mp tested
  exact ⟨error, refused, isCode, isPath, isExpression, rfl, rfl⟩

end TradingStrategy

import TradingStrategy.Document.Validate

/-!
What a value shows of a violation.

Owns:
- `Constraint.BrokenBy` and `Defect.ShownAt`: the values that break a range, and those with a defect;
- `SchemaError.ShownIn`: the path of an error leads through a value to a place where its violation can be seen;
- `SchemaError.MistakesTimeout`: the one refusal whose wording its place contradicts;
- the value at the end of a longer path.

The values that break a range are read off the wording of the range, not off the checks of the validation. Where a
violation is about more than one place, as with a name that is given twice, the other place is part of what is shown.
-/

namespace TradingStrategy

namespace Json

/-- The kinds of values that an expectation admits. -/
def admittedKinds (expected : String) : List String :=
  if expected = "number or expression string" then ["number", "string"] else [expected]

/-- A whole number from one on, in whichever way it is written. -/
def IsWholeFromOne : Json → Prop
  | int value => 1 ≤ value
  | float value => Number.isWhole value = true ∧ 1.0 ≤ value
  | _ => False

/-- The part of the position that a target takes. -/
def ratio? (target : Json) : Option Float :=
  (target.field? "ratioOfPosition").bind number?

/-- A path ends at an item of a list, and an earlier item of that list has a text under a key. -/
def StandsBefore (root : Json) (item : Path) (key text : String) : Prop :=
  ∃ list earlier index, item = list ++ [.position index] ∧ earlier < index ∧
    root.at? (list ++ [.position earlier, .key key]) = some (.string text)

end Json

/-- A value breaks a range, as the range is worded. A price, above zero, is finite like every number of a document. -/
def Constraint.BrokenBy : Constraint → Json → Prop
  | positive, value => ∃ x, value.number? = some x ∧ ¬0.0 < x
  | positivePrice, value => ∃ x, value.number? = some x ∧ ¬(x.isFinite = true ∧ 0.0 < x)
  | zoneOrder low high, value => ∃ first second, value = .array [first, second] ∧ first.number? = some low ∧
      second.number? = some high ∧ ¬low ≤ high
  | ratio, value => ∃ x, value.number? = some x ∧ ¬(0.0 ≤ x ∧ x ≤ 1.0)
  | ratioSum total, value => ∃ (targets : List Json) (ratios : List Float), value = .array targets ∧
      targets.map Json.ratio? = ratios.map some ∧ ratios.foldl (· + ·) 0.0 = total ∧ ¬total ≤ 1.0
  | positiveWhole, value => value.number?.isSome = true ∧ ¬value.IsWholeFromOne

/-- A value has a defect at the end of a path. -/
def Defect.ShownAt (root : Json) (path : Json.Path) : Defect → Prop
  | blank | blankExpression => ∃ text, root.at? path = some (.string text) ∧ Text.isBlankText text = true
  | notFinite => ∃ value x, root.at? path = some value ∧ value.number? = some x ∧ x.isFinite = false
  | identifier name => root.at? path = some (.string name) ∧ isIdentifier name = false
  | featureKind text => root.at? path = some (.string text) ∧ FeatureKind.ofName? text = none
  | notBuiltin name => root.at? path = some (.string name) ∧ isBuiltin name = false ∧
      ∃ item, path = item ++ [.key "name"] ∧ root.at? (item ++ [.key "type"]) = some (.string FeatureKind.builtin.name)
  | duplicateFeature name => root.at? path = some (.string name) ∧
      ∃ item, path = item ++ [.key "name"] ∧ root.StandsBefore item "name" name
  | timeframe text => root.at? path = some (.string text) ∧ Timeframe.ofName? text = none
  | side text => root.at? path = some (.string text) ∧ Side.ofName? text = none
  | zoneLength length => ∃ items, root.at? path = some (.array items) ∧ items.length = length ∧ length ≠ 2
  | duplicatePlan id => root.at? path = some (.string id) ∧
      ∃ item, path = item ++ [.key "id"] ∧ root.StandsBefore item "id" id

namespace SchemaError

/-- The path of an error leads to a place of a value that shows the violation. -/
def ShownIn (root : Json) (error : SchemaError) : Prop :=
  match error.violation with
  | .missing => ∃ parent key fields, error.path = parent ++ [.key key] ∧ root.at? parent = some (.object fields) ∧
      (Json.lookup? key fields = none ∨ Json.lookup? key fields = some .null)
  | .wrongType expected found => ∃ value, root.at? error.path = some value ∧ value.kindName = found ∧
      found ∉ Json.admittedKinds expected
  | .outOfRange constraint => ∃ value, root.at? error.path = some value ∧ constraint.BrokenBy value
  | .empty => root.at? error.path = some (.array [])
  | .unknownField => ∃ name fields, error.path = [.key name] ∧ root = .object fields ∧
      (Json.lookup? name fields).isSome = true ∧ name ∉ StrategyDocument.sections
  | .invalid defect => defect.ShownAt root error.path

/-- The bars that an entry may take are refused as no whole number from one on, although they are one: one that is too
large for 32 bits, or that is written with a fraction or an exponent. -/
structure MistakesTimeout (root : Json) (error : SchemaError) : Prop where
  path : error.path = [.key "execution", .key "entryTimeoutBars"]
  violation : error.violation = .outOfRange .positiveWhole
  bars : ∃ value, root.at? error.path = some value ∧ value.IsWholeFromOne ∧
    ((∃ count : Int, value = .int count ∧ StrategyDocument.maxTimeoutBars < count) ∨ ∃ x, value = .float x)

/-- Such a refusal is not shown by its place. -/
theorem MistakesTimeout.not_shownIn {root : Json} {error : SchemaError} (mistakes : error.MistakesTimeout root) :
    ¬error.ShownIn root := by
  obtain ⟨value, stands, whole, _⟩ := mistakes.bars
  rw [ShownIn, mistakes.violation]
  rintro ⟨other, standsToo, _, notWhole⟩
  obtain rfl := Option.some.inj (stands.symm.trans standsToo)
  exact notWhole whole

end SchemaError

/-! ### Longer paths -/

theorem Json.at?_append (root : Json) (path more : Json.Path) :
    root.at? (path ++ more) = (root.at? path).bind fun value => value.at? more := by
  induction path generalizing root with
  | nil => rfl
  | cons step rest inductionHypothesis =>
    rw [List.cons_append, at?, at?, Option.bind_assoc]
    exact congrArg (Option.bind (root.step? step)) (funext inductionHypothesis)

/-- One more step leads on from the value at the end of a path. -/
theorem Json.at?_step {root value : Json} {path : Json.Path} (stands : root.at? path = some value) (step : Json.Step) :
    root.at? (path ++ [step]) = value.step? step := by
  rw [at?_append, stands, Option.bind_some, at?]
  exact Option.bind_fun_some (value.step? step)

end TradingStrategy

import TradingStrategy.Proofs.Json.Reading
import TradingStrategy.Proofs.Strategy.Recovery

/-!
Persistent texts of strategies are replayed.

Owns:
- `toJson_fits`, `toJson_covered`: the persistent form of a strategy stands in its text as the reader asks for it;
- `ofText?_text`: a strategy is read from its text exactly if its numbers are finite and the text is nested within the
  limit of the reader;
- `text_replays`, with a strategy that no document is compiled to.
-/

namespace TradingStrategy

/-! ### Whole numbers and fields of the persistent form -/

theorem Expr.toJson_fits (e : Expr) : e.toJson.AllScalars Json.Fits := by
  induction e using Expr.induction with
  | literal value => cases value <;> simp [toJson, Value.toJson]
  | identifier | binary | unary | lookback => simp [toJson, *]
  | call name args areArgs => simpa [toJson, listToJson_eq] using areArgs

theorem Json.is64Bit_of_le {n : ℕ} (short : n ≤ limit32) : Is64Bit n := by
  have least : Int64.minValue.toInt ≤ 0 := by decide
  have greatest : limit32 < UInt64.size := by decide
  exact ⟨by omega, by omega⟩

theorem Action.toJson_fits {action : Action} (fits : action.Fits) : action.toJson.AllScalars Json.Fits := by
  cases action with
  | startTimer bars =>
    simp [toJson, Json.is64Bit_of_le (fits bars rfl)]
  | log | submit | cancelEntries => simp [toJson]

theorem Guard.toJson_fits (guard : Guard) : guard.toJson.AllScalars Json.Fits := by
  cases guard <;> simp [toJson, Expr.toJson_fits]

theorem PriceSlot.toJson_fits (slot : PriceSlot) : slot.toJson.AllScalars Json.Fits := by
  cases slot <;> simp [toJson, Expr.toJson_fits]

theorem OrderPlan.toJson_fits (plan : OrderPlan) : plan.toJson.AllScalars Json.Fits := by
  simp [toJson, Target.toJson, PriceSlot.toJson_fits]

theorem FeatureDescriptor.toJson_fits {descriptor : FeatureDescriptor} (freeForm : descriptor.params.IsFreeForm) :
    descriptor.toJson.AllScalars Json.Fits := by
  by_cases null : descriptor.params = .null
  · simp [toJson, null, Json.fieldUnlessNull]
  · simp [toJson, Json.fieldUnlessNull_of_ne null, freeForm.whole]

namespace Strategy

variable {strategy : Strategy}

theorem toJson_fits (storable : strategy.IsStorable) : strategy.toJson.AllScalars Json.Fits := by
  have params := fun descriptor member => FeatureDescriptor.toJson_fits (storable.params descriptor member)
  have actions := fun transition member action among =>
    Action.toJson_fits (storable.timers transition member action among)
  have timeout := Json.is64Bit_of_le storable.timeout
  simpa [toJson, Transition.toJson, Guard.toJson_fits, OrderPlan.toJson_fits, timeout] using ⟨params, actions⟩

theorem toJson_covered (strategy : Strategy) : Json.Covers shape strategy.toJson := by
  have descriptors : ∀ descriptor : FeatureDescriptor, Json.Covers
      (.record [("name", .any), ("kind", .any), ("dependencies", .any), ("params", .any)]) descriptor.toJson := by
    intro descriptor
    by_cases null : descriptor.params = .null
    · simp [FeatureDescriptor.toJson, null, Json.fieldUnlessNull, Json.Shape.field?]
    · simp [FeatureDescriptor.toJson, Json.fieldUnlessNull_of_ne null, Json.Shape.field?]
  simp [shape, toJson, Json.Shape.field?, descriptors, Transition.toJson, OrderPlan.toJson, Target.toJson]

/-- A strategy is read from its text exactly if the text is nested within the limit of the reader and its numbers are
finite, and then it is the strategy. -/
theorem ofText?_text (storable : strategy.IsStorable) (found : Strategy) :
    ofText? strategy.text = some found ↔ (strategy.toJson.height < Json.depthLimit ∧
      ∀ n ∈ strategy.numbers, n.isFinite = true) ∧ strategy = found := by
  have isRead := @Json.readAs_pretty _ (Json.depthLimit - 1) _ (toJson_covered strategy) (toJson_fits storable)
  have ofRead : ofText? strategy.text = (Json.readShape shape strategy.toJson.pretty).toOption.bind ofJson? := by
    unfold ofText? text
    split
    · next isOk => rw [isOk]; rfl
    · next failed => rw [failed]; rfl
  have limit : strategy.toJson.height ≤ Json.depthLimit - 1 ↔ strategy.toJson.height < Json.depthLimit :=
    Nat.le_sub_one_iff_lt (by decide)
  rw [ofRead, Json.readShape, isRead]
  by_cases shallow : strategy.toJson.height < Json.depthLimit
  · rw [if_pos (limit.mpr shallow)]
    simp [shallow, recovers storable found]
  · rw [if_neg fun below => shallow (limit.mp below)]
    simp [shallow]

/-- A strategy with finite numbers whose text is nested within the limit of the reader is read back from its text. -/
theorem text_replays (storable : strategy.IsStorable) (finite : ∀ n ∈ strategy.numbers, n.isFinite = true)
    (shallow : strategy.toJson.height < Json.depthLimit) : ofText? strategy.text = some strategy :=
  (ofText?_text storable strategy).mpr ⟨⟨shallow, finite⟩, rfl⟩

/-- Parameters with a value of every kind. -/
def variedParams : Json :=
  .object [("levels", .array [.int (-1), .float 0.5, .null, .bool true]), ("name", .string "\\\n")]

/-- A strategy that no document is compiled to: its stages lead backwards, its texts need escapes, its numbers stand at
the ends of their ranges, and it has guards, actions and prices of every kind. -/
def varied : Strategy where
  name := "tab\tand \"quotes\""
  symbol := ""
  timeframe := .day1
  start := .exited
  featurePlan := [
    { name := "spread", kind := .microstructure, dependencies := ["bid", "ask"], params := .null },
    { name := "spread", kind := .indicator, dependencies := [], params := variedParams }]
  transitions := [
    ⟨.managing, .armed, .expression (.call "max" [.lookback (.identifier "close") (.number (-0.0)),
      .unary .not (.boolean true)]), [.startTimer 4294967295, .log "line\nbreak", .submit "a", .cancelEntries]⟩,
    ⟨.idle, .idle, .always, []⟩,
    ⟨.placed, .exited, .armTimeout, []⟩,
    ⟨.exited, .placed, .liveOrder, []⟩]
  orderPlans := [
    { id := "a", symbol := "ACME", side := .sell, zoneLow := .literal 1.7976931348623157e308,
      zoneHigh := .expression (.binary .rem (.number 5e-324) (.identifier "macd.histogram")) "5e-324 % macd" (-1.5),
      quantity := -0.0, stop := .literal 0.1, targets := [⟨.literal 1e23, 0.3333333333333333⟩] },
    { id := "a", symbol := "", side := .buy, zoneLow := .literal 0, zoneHigh := .literal 0, quantity := 0,
      stop := .literal 0, targets := [] }]
  execution := ⟨0, true⟩
  maxRisk := -100.0

theorem variedParams_freeForm : variedParams.IsFreeForm := by
  have half : (0.5 : Float).isFinite = true := by decide
  exact ⟨rfl, by simp [variedParams, Json.Is64Bit], by simp [variedParams, Json.IsFinite, half]⟩

set_option maxRecDepth 100000 in
theorem varied_replays : varied.IsStorable ∧ (∀ n ∈ varied.numbers, n.isFinite = true) ∧
    varied.toJson.height < Json.depthLimit ∧ ofText? varied.text = some varied := by
  have storable : varied.IsStorable := by
    refine ⟨?params, ?timers, by decide⟩
    case params => simp [varied, Json.freeForm_null, variedParams_freeForm]
    case timers => simp [varied, Action.Fits, Json.limit32]
  have finite : ∀ n ∈ varied.numbers, n.isFinite = true := by decide +kernel
  have shallow : varied.toJson.height < Json.depthLimit := by decide
  exact ⟨storable, finite, shallow, text_replays storable finite shallow⟩

end Strategy

end TradingStrategy

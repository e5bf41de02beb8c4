import TradingStrategy.Json.Record
import TradingStrategy.Proofs.Document.Soundness
import TradingStrategy.Proofs.Json.Reading

/-!
Values of validated documents.

Owns:
- that every number of a validated document outside of its expressions is finite, and that an entry may take no more
  bars than 32 bits hold;
- where in the document the parameters of a feature stand.
-/

namespace TradingStrategy

/-! ### Finite numbers -/

/-- A price that is a number is finite. -/
def PriceSpec.IsFinite (price : PriceSpec) : Prop :=
  ∀ value, price = .literal value → value.isFinite = true

theorem PriceSpec.IsSound.finite {price : PriceSpec} (sound : price.IsSound) : price.IsFinite := by
  rintro value rfl
  exact sound.1

theorem TargetDeclaration.IsSound.finite {target : TargetDeclaration} (sound : target.IsSound) :
    target.price.IsFinite ∧ target.ratio.isFinite = true :=
  ⟨sound.price.finite, Number.finite_of_ratio sound.ratio.1 sound.ratio.2⟩

namespace StrategyDocument

/-- The numbers of a declared order plan are finite. -/
structure PlanIsFinite (plan : PlanDeclaration) : Prop where
  zoneLow : plan.zoneLow.IsFinite
  zoneHigh : plan.zoneHigh.IsFinite
  quantity : plan.quantity.isFinite = true
  stop : plan.stop.IsFinite
  targets : ∀ target ∈ plan.targets, target.price.IsFinite ∧ target.ratio.isFinite = true

theorem validate_plans_finite {value : Json} {document : StrategyDocument} (valid : validate value = .ok document) :
    ∀ plan ∈ document.orderPlans, PlanIsFinite plan := by
  intro plan member
  have sound := (validate_sound valid).orderPlans plan member
  exact ⟨sound.zoneLow.finite, sound.zoneHigh.finite, sound.quantity.1, sound.stop.finite,
    fun target isTarget => (sound.targets target isTarget).finite⟩

theorem validate_maxRisk_finite {value : Json} {document : StrategyDocument} (valid : validate value = .ok document) :
    document.maxRisk.isFinite = true :=
  (validate_sound valid).maxRisk.1

/-! ### Bars of patience -/

theorem readTimeout_le {place : Place} {bars : ℕ} (read : readTimeout place = .ok bars) : bars ≤ Json.limit32 := by
  unfold readTimeout at read
  split at read
  · split at read
    · next inRange =>
      have atMost : maxTimeoutBars = Json.limit32 := rfl
      rw [← Except.ok.inj read]
      omega
    · contradiction
  · contradiction
  · contradiction

theorem validate_timeout_le {value : Json} {document : StrategyDocument} (valid : validate value = .ok document) :
    document.execution.entryTimeoutBars ≤ Json.limit32 := by
  rcases validate_timeout_origin valid with isDefault | ⟨place, read⟩
  · rw [isDefault]
    decide
  · exact readTimeout_le read

/-! ### Parameters -/

theorem field?_isPart {place inner : Place} {key : String} (isField : place.field? key = some inner) :
    inner.value.IsPart place.value := by
  unfold Place.field? at isField
  split at isField
  · contradiction
  · contradiction
  · next value _ isValue =>
    rw [← Option.some.inj isField]
    exact Json.isPart_of_field isValue

theorem asItems_isPart {place : Place} {items : List Place} (read : place.asItems = .ok items) :
    ∀ item ∈ items, item.value.IsPart place.value := by
  unfold Place.asItems at read
  split at read
  · next values isArray =>
    rw [← Except.ok.inj read]
    intro item member
    obtain ⟨⟨value, index⟩, among, rfl⟩ := List.mem_map.mp member
    rw [isArray]
    exact .item (List.fst_mem_of_mem_zipIdx among)
  · contradiction

theorem readFeature_params {before : List FeatureDeclaration} {item : Place} {feature : FeatureDeclaration}
    (read : readFeature before item = .ok feature) :
    feature.params = .null ∨ feature.params.IsPart item.value := by
  unfold readFeature at read
  obtain ⟨place, isObject, read⟩ := bind_eq_ok read
  obtain ⟨namePlace, _, read⟩ := bind_eq_ok read
  obtain ⟨name, _, read⟩ := bind_eq_ok read
  split at read
  · contradiction
  · obtain ⟨kindPlace, _, read⟩ := bind_eq_ok read
    obtain ⟨text, _, read⟩ := bind_eq_ok read
    split at read
    · contradiction
    · split at read
      · contradiction
      · split at read
        · contradiction
        · rw [← Except.ok.inj read, ← asObject_same isObject]
          cases given : item.field? "params" with
          | none => exact .inl rfl
          | some params => exact .inr (field?_isPart given)

/-- The parameters of a declared feature, if there are any, stand three containers deep in the document. -/
theorem validate_params {value : Json} {document : StrategyDocument} (valid : validate value = .ok document) :
    ∀ feature ∈ document.features, feature.params = .null ∨
      ∃ features item : Json, feature.params.IsPart item ∧ item.IsPart features ∧ features.IsPart value := by
  have read := (validate_sections valid).features
  cases given : (Place.mk [] value).field? "features" with
  | none =>
    rw [given] at read
    rw [← Except.ok.inj read]
    exact fun _ member => absurd member List.not_mem_nil
  | some place =>
    rw [given] at read
    have readPlace : readFeatures place = .ok document.features := read
    obtain ⟨items, areItems, readItems⟩ := bind_eq_ok readPlace
    have isPlace : place.value.IsPart value := field?_isPart given
    intro feature member
    rcases (appended_origin readItems).2 feature member with inNone | ⟨item, isItem, before, fromItem⟩
    · exact absurd inNone List.not_mem_nil
    · exact (readFeature_params fromItem).imp_right fun isParams =>
        ⟨place.value, item.value, isParams, asItems_isPart areItems item isItem, isPlace⟩

end StrategyDocument

end TradingStrategy

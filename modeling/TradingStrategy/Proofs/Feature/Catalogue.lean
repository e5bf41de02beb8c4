import TradingStrategy.Proofs.Feature.Independence

/-!
The default catalogue in plans.

Owns:
- `default_get?`: the default registry has all features of its catalogue, each under its own name;
- `default_planned`: a plan of the default registry is bound to the features that the catalogue has under its names, and
  behind each of them stand those that it declares.
-/

namespace TradingStrategy

/-! ### Registration -/

namespace Registry

variable {registry : Registry} {feature : Feature} {features : List Feature} {name : String}

theorem find?_insertFeature (fresh : ∀ other ∈ features, other.name ≠ feature.name) :
    ((insertFeature feature features).find? fun other => other.name == name) =
      if feature.name = name then some feature else features.find? fun other => other.name == name := by
  induction features with
  | nil => by_cases same : feature.name = name <;> simp [insertFeature, same]
  | cons head rest inductionHypothesis =>
    obtain ⟨headFresh, restFresh⟩ := List.forall_mem_cons.mp fresh
    rw [insertFeature]
    split
    · by_cases same : feature.name = name <;> simp [List.find?_cons, same]
    · by_cases isHead : head.name = name
      · have different : feature.name ≠ name := fun same => headFresh (isHead.trans same.symm)
        simp [isHead, different]
      · simp [isHead, inductionHypothesis restFresh]

theorem register_get? (computed : isBuiltin feature.name = false) (fresh : registry.get? feature.name = none) :
    ∃ more, registry.register feature = .ok more ∧
      ∀ name, more.get? name = if feature.name = name then some feature else registry.get? name := by
  refine ⟨⟨insertFeature feature registry.features⟩, ?_, ?_⟩
  · rw [register, if_neg (by simp [computed]), if_neg (by simp [fresh])]
  · intro name
    apply find?_insertFeature
    intro other member
    simpa using List.find?_eq_none.mp fresh other member

/-- Features with distinct names that are not builtin and not taken are all registered, and nothing else is. -/
theorem registerAll_get? (distinct : (features.map Feature.name).Nodup)
    (computed : ∀ feature ∈ features, isBuiltin feature.name = false)
    (fresh : ∀ feature ∈ features, registry.get? feature.name = none) :
    (∀ feature ∈ features, (registry.registerAll features).get? feature.name = some feature) ∧
      ∀ name ∉ features.map Feature.name, (registry.registerAll features).get? name = registry.get? name := by
  induction features generalizing registry with
  | nil => exact ⟨fun _ member => absurd member List.not_mem_nil, fun _ _ => rfl⟩
  | cons first rest inductionHypothesis =>
    obtain ⟨firstDistinct, restDistinct⟩ := List.nodup_cons.mp distinct
    obtain ⟨firstComputed, restComputed⟩ := List.forall_mem_cons.mp computed
    obtain ⟨firstFresh, restFresh⟩ := List.forall_mem_cons.mp fresh
    obtain ⟨more, added, known⟩ := register_get? firstComputed firstFresh
    have stillFresh : ∀ feature ∈ rest, more.get? feature.name = none := by
      intro feature member
      have different : first.name ≠ feature.name :=
        fun same => firstDistinct (same ▸ List.mem_map_of_mem member)
      rw [known, if_neg different, restFresh feature member]
    obtain ⟨registered, others⟩ := inductionHypothesis restDistinct restComputed stillFresh
    have unfolded : registry.registerAll (first :: rest) = more.registerAll rest := by
      rw [registerAll, List.foldl_cons, added]
      rfl
    rw [unfolded]
    constructor
    · intro feature member
      rcases List.mem_cons.mp member with rfl | later
      · rw [others _ firstDistinct, known, if_pos rfl]
      · exact registered feature later
    · intro name unnamed
      rw [List.map_cons, List.mem_cons, not_or] at unnamed
      rw [others name unnamed.2, known, if_neg (Ne.symm unnamed.1)]

/-- The default catalogue is registered whole. -/
theorem default_get? (member : feature ∈ defaultFeatures) :
    isBuiltin feature.name = false ∧ Registry.default.get? feature.name = some feature := by
  have distinct : (defaultFeatures.map Feature.name).Nodup := by decide +kernel
  have computed : ∀ name ∈ defaultFeatures.map Feature.name, isBuiltin name = false := by decide +kernel
  rw [List.forall_mem_map] at computed
  exact ⟨computed feature member, (registerAll_get? distinct computed fun _ _ => rfl).1 feature member⟩

end Registry

namespace Pipeline

variable {steps : List Feature}

/-- Under a name of the catalogue stands the feature of the catalogue. -/
theorem Ready.mem_default (ready : Ready .default steps) {feature : Feature} (listed : feature ∈ defaultFeatures)
    (named : feature.name ∈ steps.map Feature.name) : feature ∈ steps := by
  obtain ⟨found, member, sameName⟩ := List.mem_map.mp named
  have registered := ready.registered found member
  rw [sameName, (Registry.default_get? listed).2] at registered
  exact Option.some.inj registered ▸ member

/-- Behind a feature stand those of the catalogue that it declares. -/
theorem Ready.mem_declared (ready : Ready .default steps) {feature declared : Feature} (member : feature ∈ steps)
    (listed : declared ∈ defaultFeatures) (declares : declared.name ∈ feature.dependencies) : declared ∈ steps := by
  rcases ready.arranged.closed member declared.name declares with builtin | named
  · rw [(Registry.default_get? listed).1] at builtin
    contradiction
  · exact ready.mem_default listed named

/-- A plan of the default registry is bound to all features of the catalogue that it names. -/
theorem default_planned {requested : List String} {plan : List FeatureDescriptor}
    (resolved : Registry.default.resolvePlan requested = .ok plan) :
    ∃ steps, ofPlan plan .default = .ok ⟨steps⟩ ∧ Ready .default steps ∧
      ∀ feature ∈ defaultFeatures, feature.name ∈ Registry.namesOf plan → feature ∈ steps := by
  obtain ⟨steps, bound, ready, covered⟩ := ofPlan_ready resolved
  refine ⟨steps, bound, ready, ?_⟩
  intro feature listed planned
  rcases covered feature.name planned with builtin | named
  · rw [(Registry.default_get? listed).1] at builtin
    contradiction
  · exact ready.mem_default listed named

end Pipeline

end TradingStrategy

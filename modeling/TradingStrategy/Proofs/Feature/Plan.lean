import TradingStrategy.Proofs.Feature.Order

/-!
Feature plans hold what was asked for.

Owns:
- `resolvePlan_covers`: a resolved plan has an entry for every builtin and every requested name, and every entry is
  the registry's description of its name;
- `ofPlan_binds`: such a plan is bound to a pipeline, whatever parameters its entries carry;
- `compute_get?`: the names that a snapshot has.
-/

namespace TradingStrategy

namespace Registry

variable {registry : Registry}

/-- A resolved plan covers the builtin and the requested names with descriptions of the registry. -/
theorem resolvePlan_covers {requested : List String} {plan : List FeatureDescriptor}
    (resolved : registry.resolvePlan requested = .ok plan) :
    (∀ name ∈ builtinFeatures ++ requested, ∃ entry ∈ plan, entry.name = name) ∧
      ∀ entry ∈ plan, registry.describe? entry.name = some entry := by
  refine ⟨?_, (resolvePlan_settled resolved).described⟩
  intro name among
  exact List.mem_map.mp ((resolvePlan_grows resolved).covered name among)

/-- An entry that stands for what the registry knows under its name; its parameters are its own. -/
def Backs (registry : Registry) (entry : FeatureDescriptor) : Prop :=
  (registry.describe? entry.name).map FeatureDescriptor.kind = some entry.kind

theorem Backs.registered {entry : FeatureDescriptor} (backs : registry.Backs entry)
    (computed : Pipeline.isTaken entry = false) :
    isBuiltin entry.name = false ∧ ∃ feature, registry.get? entry.name = some feature := by
  unfold Backs describe? at backs
  split at backs
  · next builtin =>
    have builtinKind : FeatureKind.builtin = entry.kind := Option.some.inj backs
    simp [Pipeline.isTaken, ← builtinKind, builtin] at computed
  · next notBuiltin =>
    refine ⟨by simpa using notBuiltin, ?_⟩
    cases found : registry.get? entry.name with
    | none => simp [found] at backs
    | some feature => exact ⟨feature, rfl⟩

end Registry

namespace Pipeline

variable {registry : Registry}

private theorem mapM_bind {entries : List FeatureDescriptor}
    (registered : ∀ entry ∈ entries, ∃ feature, registry.get? entry.name = some feature) :
    ∃ features, entries.mapM (bind registry) = .ok features ∧
      features.map Feature.name = entries.map FeatureDescriptor.name := by
  induction entries with
  | nil => exact ⟨[], rfl, rfl⟩
  | cons first rest inductionHypothesis =>
    obtain ⟨feature, found⟩ := registered first (by simp)
    obtain ⟨features, bound, names⟩ := inductionHypothesis fun entry member => registered entry (by simp [member])
    refine ⟨feature :: features, ?_, ?_⟩
    · rw [List.mapM_cons, bound, bind, found]
      rfl
    · rw [List.map_cons, List.map_cons, names, (Registry.get?_name found).1]

/-- A plan of entries that the registry backs is bound to a pipeline, whose features are those of the plan that are not
taken from the bar. -/
theorem ofPlan_binds {plan : List FeatureDescriptor} (backed : ∀ entry ∈ plan, registry.Backs entry) :
    ∃ pipeline, ofPlan plan registry = .ok pipeline ∧
      pipeline.steps.map Feature.name =
        (plan.filter fun entry => !isTaken entry).map FeatureDescriptor.name := by
  have registered : ∀ entry ∈ plan.filter fun entry => !isTaken entry,
      ∃ feature, registry.get? entry.name = some feature := by
    intro entry member
    obtain ⟨inPlan, computed⟩ := List.mem_filter.mp member
    exact ((backed entry inPlan).registered (by simpa using computed)).2
  obtain ⟨features, bound, names⟩ := mapM_bind registered
  refine ⟨⟨features⟩, ?_, names⟩
  simp only [ofPlan, bound]
  rfl

/-! ### The names of a snapshot -/

theorem valueOf?_isSome (name : String) (values : List (String × Float)) :
    (valueOf? name values).isSome ↔ name ∈ values.map Prod.fst := by
  induction values with
  | nil => simp [valueOf?]
  | cons head rest inductionHypothesis =>
    obtain ⟨key, value⟩ := head
    by_cases same : key = name
    · simp [valueOf?, same]
    · simp [valueOf?, same, Ne.symm same, inductionHypothesis]

theorem get?_insert_isSome (snapshot : Snapshot) (name other : String) (value : Float) :
    ((snapshot.insert name value).get? other).isSome ↔ name = other ∨ (snapshot.get? other).isSome := by
  unfold Snapshot.insert Snapshot.get?
  by_cases same : other = name
  · subst same
    simp [valueOf?_setValue_same]
  · simp [valueOf?_setValue_other value snapshot.values same, Ne.symm same]

theorem get?_ofBar_isSome (bar : Bar) (name : String) :
    ((Snapshot.ofBar bar).get? name).isSome ↔ isBuiltin name = true := by
  rw [Snapshot.get?, valueOf?_isSome, isBuiltin, List.contains_iff_mem]
  rfl

/-- The snapshot of a bar has the builtin names and the names of the pipeline, and no others. -/
theorem compute_get? (pipeline : Pipeline) (bar : Bar) (past : List Snapshot) (name : String) :
    ((pipeline.compute bar past).get? name).isSome ↔
      isBuiltin name = true ∨ name ∈ pipeline.steps.map Feature.name := by
  have folded : ∀ (steps : List Feature) (snapshot : Snapshot),
      ((steps.foldl (step past) snapshot).get? name).isSome ↔
        (snapshot.get? name).isSome ∨ name ∈ steps.map Feature.name := by
    intro steps
    induction steps with
    | nil => simp
    | cons first rest inductionHypothesis =>
      intro snapshot
      rw [List.foldl_cons, inductionHypothesis, step, get?_insert_isSome, List.map_cons, List.mem_cons]
      constructor
      · rintro ((same | present) | among)
        · exact .inr (.inl same.symm)
        · exact .inl present
        · exact .inr (.inr among)
      · rintro (present | same | among)
        · exact .inl (.inr present)
        · exact .inl (.inl same.symm)
        · exact .inr among
  rw [compute, folded, get?_ofBar_isSome]

end Pipeline

end TradingStrategy

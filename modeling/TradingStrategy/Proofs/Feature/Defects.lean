import Mathlib.Data.List.Chain
import Mathlib.Data.List.Nodup
import TradingStrategy.Proofs.Feature.Order

/-!
The errors of feature plans.

Owns:
- `NamesDefect`: what an error of planning says about the registry and the request;
- `Trail`: the path of a visit is a chain of declared dependencies without repetition, from a requested name on;
- `visit_namesDefect`: a visit at the end of a trail fails only with such an error;
- `resolvePlan_names_defect`: so does the planning of a request.

Does not own when planning fails, which is in `Proofs.Feature.Order`.
-/

namespace TradingStrategy

namespace Registry

variable {registry : Registry} {requested path : List String} {order : List FeatureDescriptor} {name : String}
  {error : RegistryError}

/-- An error of planning names a defect of the registry or of the request. -/
inductive NamesDefect (registry : Registry) (requested : List String) : RegistryError → Prop where
  /-- A needed feature depends on itself over declared dependencies, on a way that meets no other feature twice. -/
  | cycle {name : String} {between : List String} (needed : registry.Needs requested name)
      (declared : List.IsChain registry.Declares (name :: between ++ [name])) (distinct : (name :: between).Nodup) :
      NamesDefect registry requested (.cycle (name :: between ++ [name]))
  /-- A needed feature is registered with a dependency that is not known. -/
  | unknownDependency {feature : Feature} {dependency : String} (needed : registry.Needs requested feature.name)
      (registered : registry.get? feature.name = some feature) (declared : dependency ∈ feature.dependencies)
      (unknown : registry.contains dependency = false) :
      NamesDefect registry requested (.unknownDependency feature.name dependency)
  /-- A requested name is not known. -/
  | unknownFeatures {name : String} (asked : name ∈ requested) (unknown : registry.contains name = false) :
      NamesDefect registry requested (.unknownFeatures [name] registry.names)

/-! ### Trails -/

/-- A path that leads to a name, nearest feature first: each feature on it declares the one in front of it, none stands
twice, all of them are needed, and without a path the name itself is requested. -/
structure Trail (registry : Registry) (requested path : List String) (name : String) : Prop where
  declared : List.IsChain (fun dependency feature => registry.Declares feature dependency) (name :: path)
  distinct : path.Nodup
  needed : ∀ ancestor ∈ name :: path, registry.Needs requested ancestor
  asked : path = [] → name ∈ requested

namespace Trail

theorem start (asked : name ∈ requested) : registry.Trail requested [] name where
  declared := List.isChain_singleton name
  distinct := List.nodup_nil
  needed ancestor member := by
    rw [List.mem_singleton.mp member]
    exact ⟨name, asked, .refl⟩
  asked _ := asked

/-- From a feature that is not on the path, a trail goes on to what the feature declares. -/
theorem descend (trail : registry.Trail requested path name) (fresh : name ∉ path) {dependency : String}
    (declares : registry.Declares name dependency) : registry.Trail requested (name :: path) dependency where
  declared := List.isChain_cons_cons.mpr ⟨declares, trail.declared⟩
  distinct := List.nodup_cons.mpr ⟨fresh, trail.distinct⟩
  needed ancestor member := by
    rcases List.mem_cons.mp member with rfl | member
    · obtain ⟨root, asked, reached⟩ := trail.needed name List.mem_cons_self
      exact ⟨root, asked, reached.tail declares⟩
    · exact trail.needed ancestor member
  asked isNil := nomatch isNil

end Trail

/-! ### The two failures of a visit -/

/-- A name that is met again on its own trail closes a cycle. -/
theorem Trail.cycle (trail : registry.Trail requested path name) (onPath : name ∈ path) :
    registry.NamesDefect requested (.cycle (cycleOf name path)) := by
  obtain ⟨rest, split⟩ := exists_split_takeWhile onPath
  rw [cycleOf]
  generalize path.takeWhile (· ≠ name) = nearer at split ⊢
  subst split
  refine .cycle (trail.needed name List.mem_cons_self) ?_ ?_
  · -- The path stands nearest first, and the cycle leads the other way.
    have closed : List.IsChain (fun dependency feature => registry.Declares feature dependency)
        (name :: nearer ++ [name]) := by
      have whole := trail.declared
      rw [List.append_cons, ← List.cons_append] at whole
      exact whole.left_of_append
    rw [← List.isChain_reverse] at closed
    simpa using closed
  · have distinct : (nearer ++ [name]).Nodup := by
      have whole := trail.distinct
      rw [List.append_cons] at whole
      exact (List.nodup_append.mp whole).1
    rw [← List.nodup_reverse] at distinct
    simpa using distinct

/-- A feature that declares a dependency is not builtin. -/
theorem Declares.registered {feature dependency : String} (declares : registry.Declares feature dependency) :
    ∃ found, registry.get? feature = some found ∧ found.name = feature ∧ dependency ∈ found.dependencies := by
  by_cases builtin : isBuiltin feature = true
  · exact absurd declares (not_declares_builtin builtin dependency)
  · obtain ⟨descriptor, known, listed⟩ := declares
    rw [describe?, if_neg builtin] at known
    obtain ⟨found, isFound, same⟩ := Option.map_eq_some_iff.mp known
    refine ⟨found, isFound, (get?_name isFound).1, ?_⟩
    rw [← same] at listed
    exact listed

/-- A name that is not known was requested, or a feature of the trail declares it. -/
theorem Trail.unknown (trail : registry.Trail requested path name) (unknown : registry.describe? name = none) :
    registry.NamesDefect requested (registry.unknownError name path.head?) := by
  have notContained : registry.contains name = false := by
    rw [← describe?_isSome, unknown]
    rfl
  cases path with
  | nil => exact .unknownFeatures (trail.asked rfl) notContained
  | cons feature others =>
    obtain ⟨found, isFound, rfl, listed⟩ := (List.isChain_cons_cons.mp trail.declared).1.registered
    exact .unknownDependency (trail.needed found.name (by simp)) isFound listed notContained

/-! ### Visits -/

theorem foldlM_error {visit : List FeatureDescriptor → String → Except RegistryError (List FeatureDescriptor)}
    {names : List String} (failed : names.foldlM visit order = .error error) :
    ∃ name ∈ names, ∃ between, visit between name = .error error := by
  induction names generalizing order with
  | nil => contradiction
  | cons first rest inductionHypothesis =>
    rw [List.foldlM_cons] at failed
    rcases bind_eq_error failed with failedFirst | ⟨between, _, failedRest⟩
    · exact ⟨first, List.mem_cons_self, order, failedFirst⟩
    · obtain ⟨name, among, later, failedLater⟩ := inductionHypothesis failedRest
      exact ⟨name, List.mem_cons_of_mem _ among, later, failedLater⟩

/-- A visit at the end of a trail fails only with an error that names a defect. -/
theorem visit_namesDefect (trail : registry.Trail requested path name)
    (failed : registry.visit path order name = .error error) : registry.NamesDefect requested error := by
  induction path, order, name using Registry.visit.induct registry with
  | case1 path order name present =>
    rw [visit_present (any_name.mp present)] at failed
    contradiction
  | case2 path order name absent onPath =>
    rw [visit_onPath (mt any_name.mpr absent) onPath] at failed
    rw [← Except.error.inj failed]
    exact trail.cycle onPath
  | case3 path order name absent fresh unknown =>
    rw [visit_unknown (mt any_name.mpr absent) fresh unknown] at failed
    rw [← Except.error.inj failed]
    exact trail.unknown unknown
  | case4 path order name absent fresh descriptor known _ inductionHypothesis =>
    rw [visit_known (mt any_name.mpr absent) fresh known] at failed
    rcases bind_eq_error failed with failedInside | ⟨_, _, impossible⟩
    · obtain ⟨dependency, listed, between, failedThere⟩ := foldlM_error failedInside
      exact inductionHypothesis between dependency (trail.descend fresh ⟨descriptor, known, listed⟩) failedThere
    · contradiction

/-- A builtin name is always visited with success, since it needs nothing. -/
theorem visit_builtin_ne_error (builtin : isBuiltin name = true) : registry.visit [] order name ≠ .error error := by
  have succeeds : ∃ more, registry.visit [] order name = .ok more := by
    refine visit_succeeds (fun _ member => absurd member List.not_mem_nil) fun other reached => ?_
    rw [reached_builtin builtin reached]
    exact ⟨by rw [contains, builtin, Bool.true_or], not_onCycle_builtin builtin⟩
  obtain ⟨more, visited⟩ := succeeds
  rw [visited]
  intro impossible
  contradiction

/-- Planning fails only with an error that names a defect: a cycle of declared dependencies that the request needs, a
needed feature with a dependency that is not known, or a requested name that is not known. -/
theorem resolvePlan_names_defect (failed : registry.resolvePlan requested = .error error) :
    registry.NamesDefect requested error := by
  rw [resolvePlan_eq_foldlM] at failed
  obtain ⟨root, among, between, failedThere⟩ := foldlM_error failed
  rcases List.mem_append.mp among with builtin | asked
  · exact absurd failedThere (visit_builtin_ne_error (List.contains_iff_mem.mpr builtin))
  · exact visit_namesDefect (.start asked) failedThere

/-! ### A ring behind a requested feature -/

/-- Three features that depend on one another in a ring, and one that leads there. -/
def ringRegistry : Registry :=
  Registry.empty.registerAll [.constant "lead" .indicator ["close", "swing"] 0.0,
    .constant "swing" .indicator ["pulse"] 0.0, .constant "pulse" .indicator ["open", "drift"] 0.0,
    .constant "drift" .indicator ["close", "swing"] 0.0]

/-- The ring is reported from where the request enters it; the features in front of it are left out. -/
theorem ring_names_defect :
    ringRegistry.resolvePlan ["close", "lead"] = .error (.cycle ["swing", "pulse", "drift", "swing"]) ∧
      ringRegistry.NamesDefect ["close", "lead"] (.cycle ["swing", "pulse", "drift", "swing"]) := by
  have failed : ringRegistry.resolvePlan ["close", "lead"] = .error (.cycle ["swing", "pulse", "drift", "swing"]) :=
    eq_error_of_test (by decide +kernel)
  exact ⟨failed, resolvePlan_names_defect failed⟩

end Registry

end TradingStrategy

import Mathlib.Logic.Relation
import TradingStrategy.Proofs.Feature.Search

/-!
The order of a feature plan.

Owns:
- what a request needs, and cycles, as relations between names;
- `Settled`: orders in which every feature stands once and behind all that it declares;
- `visit_grows` and `visit_succeeds`: what a visit adds to an order, and when it gets there;
- `resolvePlan_eq_ok`: which requests have a plan, and what the plan looks like.

Does not own the binding of a plan to its features, which is in `Proofs.Feature.Plan`.
-/

namespace TradingStrategy

namespace Registry

open Relation (ReflTransGen TransGen)

variable {registry : Registry} {path : List String} {order more : List FeatureDescriptor} {name : String}

/-! ### Names and what they need -/

/-- A known feature lists a name among its dependencies. -/
def Declares (registry : Registry) (feature dependency : String) : Prop :=
  ∃ descriptor, registry.describe? feature = some descriptor ∧ dependency ∈ descriptor.dependencies

/-- A name that is asked for, or that something asked for depends on. -/
def Needs (registry : Registry) (roots : List String) (name : String) : Prop :=
  ∃ root ∈ roots, ReflTransGen registry.Declares root name

/-- A feature that depends on itself, be it over other ones. -/
def OnCycle (registry : Registry) (name : String) : Prop :=
  TransGen registry.Declares name name

theorem Needs.mono {roots others : List String} (needed : registry.Needs roots name)
    (among : ∀ root ∈ roots, registry.Needs others root) : registry.Needs others name := by
  obtain ⟨root, member, reached⟩ := needed
  obtain ⟨other, otherMember, between⟩ := among root member
  exact ⟨other, otherMember, between.trans reached⟩

theorem describe?_isSome : (registry.describe? name).isSome = registry.contains name := by
  unfold describe? contains
  cases isBuiltin name with
  | true => rfl
  | false => simp

theorem describe?_builtin (builtin : isBuiltin name = true) :
    registry.describe? name = some ⟨name, .builtin, [], .null⟩ := by
  rw [describe?, if_pos builtin]

theorem not_declares_builtin (builtin : isBuiltin name = true) (dependency : String) :
    ¬ registry.Declares name dependency := by
  rintro ⟨descriptor, known, declared⟩
  rw [describe?_builtin builtin] at known
  rw [← Option.some.inj known] at declared
  exact List.not_mem_nil declared

theorem reached_builtin (builtin : isBuiltin name = true) {other : String}
    (reached : ReflTransGen registry.Declares name other) : other = name := by
  cases ReflTransGen.cases_head reached with
  | inl same => exact same.symm
  | inr step =>
    obtain ⟨dependency, declares, _⟩ := step
    exact absurd declares (not_declares_builtin builtin dependency)

theorem not_onCycle_builtin (builtin : isBuiltin name = true) : ¬ registry.OnCycle name := by
  intro cycle
  obtain ⟨dependency, declares, _⟩ := TransGen.head'_iff.mp cycle
  exact not_declares_builtin builtin dependency declares

/-! ### Settled orders -/

/-- Every feature stands once, is described as the registry does it, and stands behind all that it declares. -/
inductive Settled (registry : Registry) : List FeatureDescriptor → Prop where
  | nil : Settled registry []
  | snoc {order : List FeatureDescriptor} {entry : FeatureDescriptor} (settled : Settled registry order)
      (described : registry.describe? entry.name = some entry) (fresh : entry.name ∉ namesOf order)
      (behind : ∀ dependency ∈ entry.dependencies, dependency ∈ namesOf order) :
      Settled registry (order ++ [entry])

namespace Settled

theorem described (settled : registry.Settled order) :
    ∀ entry ∈ order, registry.describe? entry.name = some entry := by
  induction settled with
  | nil => intro entry member; contradiction
  | snoc _ last _ _ inductionHypothesis =>
    intro entry member
    rcases List.mem_append.mp member with member | member
    · exact inductionHypothesis entry member
    · rw [List.mem_singleton.mp member]
      exact last

theorem nodup (settled : registry.Settled order) : (namesOf order).Nodup := by
  induction settled with
  | nil => exact List.nodup_nil
  | snoc _ _ fresh _ inductionHypothesis =>
    rw [namesOf, List.map_append, List.nodup_append]
    refine ⟨inductionHypothesis, by simp, ?_⟩
    intro earlier member later last same
    rw [List.map_singleton, List.mem_singleton] at last
    exact fresh (last ▸ same ▸ member)

theorem behind (settled : registry.Settled order) {before after : List FeatureDescriptor} {entry : FeatureDescriptor}
    (stands : order = before ++ entry :: after) : ∀ dependency ∈ entry.dependencies, dependency ∈ namesOf before := by
  induction settled generalizing after with
  | nil => simp at stands
  | snoc _ _ _ behindLast inductionHypothesis =>
    rcases List.eq_nil_or_concat after with rfl | ⟨init, final, rfl⟩
    · obtain ⟨sameOrder, sameEntry⟩ := List.append_inj' stands rfl
      rw [← sameOrder, ← List.singleton_inj.mp sameEntry]
      exact behindLast
    · rw [List.concat_eq_append, ← List.cons_append, ← List.append_assoc] at stands
      exact inductionHypothesis (List.append_inj' stands rfl).1

/-- What a feature of the order declares is in the order too. -/
theorem declared (settled : registry.Settled order) (member : name ∈ namesOf order) {dependency : String}
    (declares : registry.Declares name dependency) : dependency ∈ namesOf order := by
  obtain ⟨entry, inOrder, rfl⟩ := List.mem_map.mp member
  obtain ⟨descriptor, known, listed⟩ := declares
  have same : entry = descriptor := Option.some.inj ((settled.described entry inOrder).symm.trans known)
  obtain ⟨before, after, stands⟩ := List.append_of_mem inOrder
  have earlier := settled.behind stands dependency (same ▸ listed)
  rw [stands, namesOf, List.map_append]
  exact List.mem_append_left _ earlier

theorem closed (settled : registry.Settled order) (member : name ∈ namesOf order) {other : String}
    (reached : ReflTransGen registry.Declares name other) : other ∈ namesOf order := by
  induction reached with
  | refl => exact member
  | tail _ declares inductionHypothesis => exact settled.declared inductionHypothesis declares

/-- A feature of a settled order is on no cycle: the cycle would lead through the features in front of it. -/
theorem acyclic (settled : registry.Settled order) (member : name ∈ namesOf order) : ¬ registry.OnCycle name := by
  induction settled with
  | nil => contradiction
  | @snoc order entry settled described fresh behind inductionHypothesis =>
    by_cases earlier : name ∈ namesOf order
    · exact inductionHypothesis earlier
    · have last : name = entry.name := (mem_namesOf_snoc.mp member).resolve_left earlier
      intro cycle
      obtain ⟨dependency, ⟨descriptor, known, listed⟩, back⟩ := TransGen.head'_iff.mp cycle
      rw [last, described] at known
      have inFront := behind dependency (Option.some.inj known ▸ listed)
      exact earlier (settled.closed inFront back)

theorem sound (settled : registry.Settled order) (member : name ∈ namesOf order) :
    registry.contains name = true ∧ ¬ registry.OnCycle name := by
  refine ⟨?_, settled.acyclic member⟩
  obtain ⟨entry, inOrder, rfl⟩ := List.mem_map.mp member
  rw [← describe?_isSome, settled.described entry inOrder]
  rfl

end Settled

/-- Names that a registry knows, each behind all that it declares. -/
def standInOrder (registry : Registry) : List String → List String → Bool
  | _, [] => true
  | before, name :: rest =>
      !before.contains name && ((registry.describe? name).any fun descriptor =>
        descriptor.dependencies.all before.contains) && standInOrder registry (before ++ [name]) rest

theorem exists_settled {names : List String} (settled : registry.Settled order)
    (inOrder : standInOrder registry (namesOf order) names = true) :
    ∃ more, registry.Settled more ∧ namesOf more = namesOf order ++ names := by
  induction names generalizing order with
  | nil => exact ⟨order, settled, (List.append_nil _).symm⟩
  | cons first rest inductionHypothesis =>
    simp only [standInOrder, Bool.and_eq_true, Bool.not_eq_true', Option.any_eq_true, List.all_eq_true,
      List.contains_iff_mem] at inOrder
    obtain ⟨⟨fresh, descriptor, known, behind⟩, others⟩ := inOrder
    have named := describe?_name known
    have next : registry.Settled (order ++ [descriptor]) := by
      refine .snoc settled (named.symm ▸ known) ?_ behind
      rw [named]
      exact fun member => by simp [member] at fresh
    have nextNames : namesOf (order ++ [descriptor]) = namesOf order ++ [first] := by simp [namesOf, named]
    rw [← nextNames] at others
    obtain ⟨more, moreSettled, moreNames⟩ := inductionHypothesis next others
    exact ⟨more, moreSettled, by rw [moreNames, nextNames, List.append_assoc, List.singleton_append]⟩

/-! ### What a visit adds -/

/-- An order that goes on with what some names need, off the path that leads to them. -/
structure Grows (registry : Registry) (path roots : List String) (order more : List FeatureDescriptor) : Prop where
  kept : order <+: more
  covered : ∀ root ∈ roots, root ∈ namesOf more
  reached : ∀ entry ∈ more, entry ∈ order ∨ registry.Needs roots entry.name ∧ entry.name ∉ path
  settled : registry.Settled order → registry.Settled more

theorem Grows.cons {between : List FeatureDescriptor} {roots : List String}
    (first : registry.Grows path [name] order between) (rest : registry.Grows path roots between more) :
    registry.Grows path (name :: roots) order more where
  kept := first.kept.trans rest.kept
  covered root member := by
    rcases List.mem_cons.mp member with rfl | member
    · exact ((rest.kept.map _).subset) (first.covered root (List.mem_singleton_self root))
    · exact rest.covered root member
  reached entry member := by
    rcases rest.reached entry member with member | ⟨needed, off⟩
    · rcases first.reached entry member with member | ⟨needed, off⟩
      · exact .inl member
      · refine .inr ⟨needed.mono ?_, off⟩
        intro root among
        exact ⟨root, by simp [List.mem_singleton.mp among], .refl⟩
    · refine .inr ⟨needed.mono ?_, off⟩
      intro root among
      exact ⟨root, List.mem_cons_of_mem _ among, .refl⟩
  settled start := rest.settled (first.settled start)

theorem foldlM_grows {visit : List FeatureDescriptor → String → Except RegistryError (List FeatureDescriptor)}
    (goesOn : ∀ order more name, visit order name = .ok more → registry.Grows path [name] order more)
    {names : List String} (visited : names.foldlM visit order = .ok more) :
    registry.Grows path names order more := by
  induction names generalizing order with
  | nil =>
    rw [← Except.ok.inj visited]
    exact ⟨List.prefix_rfl, by simp, fun _ member => .inl member, id⟩
  | cons first rest inductionHypothesis =>
    rw [List.foldlM_cons] at visited
    obtain ⟨between, visitedFirst, visitedRest⟩ := bind_eq_ok visited
    exact (goesOn order between first visitedFirst).cons (inductionHypothesis visitedRest)

/-- A feature behind all that it declares. It is not among what its dependencies brought, since their path leads
through it. -/
theorem Grows.snoc {descriptor : FeatureDescriptor} (known : registry.describe? name = some descriptor)
    (absent : name ∉ namesOf order) (fresh : name ∉ path)
    (inner : registry.Grows (name :: path) descriptor.dependencies order more) :
    registry.Grows path [name] order (more ++ [descriptor]) := by
  have named := describe?_name known
  have stillAbsent : name ∉ namesOf more := by
    intro member
    obtain ⟨entry, inMore, same⟩ := List.mem_map.mp member
    rcases inner.reached entry inMore with inOrder | ⟨_, off⟩
    · exact absent (same ▸ List.mem_map_of_mem inOrder)
    · exact off (same ▸ List.mem_cons_self)
  refine ⟨inner.kept.trans (List.prefix_append _ _), ?_, ?_, ?_⟩
  · intro root member
    rw [List.mem_singleton.mp member]
    exact mem_namesOf_snoc.mpr (.inr named.symm)
  · intro entry member
    rcases List.mem_append.mp member with member | last
    · rcases inner.reached entry member with inOrder | ⟨needed, off⟩
      · exact .inl inOrder
      · refine .inr ⟨needed.mono ?_, fun onPath => off (List.mem_cons_of_mem _ onPath)⟩
        intro dependency listed
        exact ⟨name, List.mem_singleton_self name, .single ⟨descriptor, known, listed⟩⟩
    · rw [List.mem_singleton.mp last, named]
      exact .inr ⟨⟨name, List.mem_singleton_self name, .refl⟩, fresh⟩
  · intro start
    exact .snoc (inner.settled start) (named.symm ▸ known) (named.symm ▸ stillAbsent) inner.covered

theorem visit_grows (visited : registry.visit path order name = .ok more) :
    registry.Grows path [name] order more := by
  induction path, order, name using Registry.visit.induct registry generalizing more with
  | case1 path order name present =>
    have among := any_name.mp present
    rw [visit_present among] at visited
    rw [← Except.ok.inj visited]
    refine ⟨List.prefix_rfl, ?_, fun _ member => .inl member, id⟩
    intro root member
    exact List.mem_singleton.mp member ▸ among
  | case2 path order name absent onPath =>
    rw [visit_onPath (mt any_name.mpr absent) onPath] at visited
    contradiction
  | case3 path order name absent fresh unknown =>
    rw [visit_unknown (mt any_name.mpr absent) fresh unknown] at visited
    contradiction
  | case4 path order name absent fresh descriptor known _ inductionHypothesis =>
    have notAmong := mt any_name.mpr absent
    rw [visit_known notAmong fresh known] at visited
    obtain ⟨between, visitedDependencies, ended⟩ := bind_eq_ok visited
    rw [← Except.ok.inj ended]
    have inner := foldlM_grows (fun order more dependency visited =>
      inductionHypothesis order dependency visited) visitedDependencies
    exact .snoc known notAmong fresh inner

/-! ### When a visit succeeds -/

theorem foldlM_succeeds {visit : List FeatureDescriptor → String → Except RegistryError (List FeatureDescriptor)}
    {names : List String} (succeeds : ∀ name ∈ names, ∀ order, ∃ more, visit order name = .ok more)
    (order : List FeatureDescriptor) : ∃ more, names.foldlM visit order = .ok more := by
  induction names generalizing order with
  | nil => exact ⟨order, rfl⟩
  | cons first rest inductionHypothesis =>
    obtain ⟨between, visitedFirst⟩ := succeeds first List.mem_cons_self order
    rw [List.foldlM_cons, visitedFirst]
    exact inductionHypothesis (fun name member => succeeds name (List.mem_cons_of_mem _ member)) between

/-- A visit of a name at the end of its path succeeds, if all that the name needs is known and on no cycle: a name that
is met again on the path would be on one. -/
theorem visit_succeeds (chain : ∀ ancestor ∈ path, TransGen registry.Declares ancestor name)
    (sound : ∀ other, ReflTransGen registry.Declares name other →
      registry.contains other = true ∧ ¬ registry.OnCycle other) :
    ∃ more, registry.visit path order name = .ok more := by
  induction path, order, name using Registry.visit.induct registry with
  | case1 path order name present => exact ⟨order, visit_present (any_name.mp present)⟩
  | case2 path order name absent onPath => exact absurd (chain name onPath) (sound name .refl).2
  | case3 path order name absent fresh unknown =>
    have known := (sound name .refl).1
    rw [← describe?_isSome, unknown] at known
    contradiction
  | case4 path order name absent fresh descriptor known _ inductionHypothesis =>
    have dependencies : ∀ dependency ∈ descriptor.dependencies, ∀ order,
        ∃ more, registry.visit (name :: path) order dependency = .ok more := by
      intro dependency listed order
      have declares : registry.Declares name dependency := ⟨descriptor, known, listed⟩
      apply inductionHypothesis order dependency
      · intro ancestor member
        rcases List.mem_cons.mp member with rfl | member
        · exact .single declares
        · exact (chain ancestor member).tail declares
      · intro other reached
        exact sound other (.head declares reached)
    obtain ⟨between, visited⟩ := foldlM_succeeds dependencies order
    refine ⟨between ++ [descriptor], ?_⟩
    rw [visit_known (mt any_name.mpr absent) fresh known, visited]
    rfl

/-! ### The builtin features in front -/

theorem visit_builtin (builtin : isBuiltin name = true) (absent : name ∉ namesOf order) :
    registry.visit [] order name = .ok (order ++ [⟨name, .builtin, [], .null⟩]) := by
  rw [visit_known absent List.not_mem_nil (describe?_builtin builtin)]
  rfl

theorem foldlM_builtin {names : List String} (builtin : ∀ name ∈ names, isBuiltin name = true)
    (distinct : (namesOf order ++ names).Nodup) :
    names.foldlM (registry.visit []) order = .ok (order ++ names.map fun name => ⟨name, .builtin, [], .null⟩) := by
  induction names generalizing order with
  | nil => rw [List.map_nil, List.append_nil]; rfl
  | cons first rest inductionHypothesis =>
    have absent : first ∉ namesOf order := by
      intro member
      exact (List.nodup_append.mp distinct).2.2 first member first List.mem_cons_self rfl
    rw [List.foldlM_cons, visit_builtin (builtin first List.mem_cons_self) absent]
    have others : rest.foldlM (registry.visit []) (order ++ [⟨first, .builtin, [], .null⟩]) =
        .ok (order ++ [⟨first, .builtin, [], .null⟩] ++ rest.map fun name => ⟨name, .builtin, [], .null⟩) := by
      apply inductionHypothesis (fun name member => builtin name (List.mem_cons_of_mem _ member))
      simpa [namesOf] using distinct
    rw [List.append_assoc] at others
    exact others

/-! ### Plans -/

/-- A plan of all that a request needs: the builtin features in front, every name once, and every feature behind all
that it declares. -/
structure OrderedPlan (registry : Registry) (requested : List String) (plan : List FeatureDescriptor) : Prop where
  front : builtinFeatures <+: namesOf plan
  once : (namesOf plan).Nodup
  names : ∀ name, name ∈ namesOf plan ↔ name ∈ builtinFeatures ∨ registry.Needs requested name
  described : ∀ entry ∈ plan, registry.describe? entry.name = some entry
  behind : ∀ before entry after, plan = before ++ entry :: after →
    ∀ dependency ∈ entry.dependencies, dependency ∈ namesOf before

theorem resolvePlan_grows {requested : List String} {plan : List FeatureDescriptor}
    (resolved : registry.resolvePlan requested = .ok plan) :
    registry.Grows [] (builtinFeatures ++ requested) [] plan := by
  rw [resolvePlan_eq_foldlM] at resolved
  exact foldlM_grows (fun _ _ _ visited => visit_grows visited) resolved

theorem resolvePlan_settled {requested : List String} {plan : List FeatureDescriptor}
    (resolved : registry.resolvePlan requested = .ok plan) : registry.Settled plan :=
  (resolvePlan_grows resolved).settled .nil

theorem resolvePlan_front {requested : List String} {plan : List FeatureDescriptor}
    (resolved : registry.resolvePlan requested = .ok plan) : builtinFeatures <+: namesOf plan := by
  rw [resolvePlan_eq_foldlM, List.foldlM_append] at resolved
  obtain ⟨front, visitedBuiltin, visitedRest⟩ := bind_eq_ok resolved
  rw [foldlM_builtin (fun _ => List.contains_iff_mem.mpr) (by decide)] at visitedBuiltin
  have kept := (foldlM_grows (fun _ _ _ visited => visit_grows visited) visitedRest).kept
  rw [← Except.ok.inj visitedBuiltin] at kept
  exact kept.map FeatureDescriptor.name

theorem resolvePlan_ordered {requested : List String} {plan : List FeatureDescriptor}
    (resolved : registry.resolvePlan requested = .ok plan) : OrderedPlan registry requested plan := by
  have grows := resolvePlan_grows resolved
  have settled := resolvePlan_settled resolved
  refine ⟨resolvePlan_front resolved, settled.nodup, ?_, settled.described, fun _ _ _ stands => settled.behind stands⟩
  intro name
  constructor
  · intro member
    obtain ⟨entry, inPlan, rfl⟩ := List.mem_map.mp member
    obtain ⟨root, among, reached⟩ := ((grows.reached entry inPlan).resolve_left List.not_mem_nil).1
    rcases List.mem_append.mp among with builtin | asked
    · rw [reached_builtin (List.contains_iff_mem.mpr builtin) reached]
      exact .inl builtin
    · exact .inr ⟨root, asked, reached⟩
  · rintro (builtin | ⟨root, asked, reached⟩)
    · exact grows.covered name (List.mem_append_left _ builtin)
    · exact settled.closed (grows.covered root (List.mem_append_right _ asked)) reached

theorem resolvePlan_succeeds {requested : List String}
    (sound : ∀ name, registry.Needs requested name → registry.contains name = true ∧ ¬ registry.OnCycle name) :
    ∃ plan, registry.resolvePlan requested = .ok plan := by
  rw [resolvePlan_eq_foldlM]
  apply foldlM_succeeds
  intro name among order
  apply visit_succeeds
  · exact fun _ member => absurd member List.not_mem_nil
  · intro other reached
    rcases List.mem_append.mp among with member | asked
    · have builtin : isBuiltin name = true := List.contains_iff_mem.mpr member
      rw [reached_builtin builtin reached]
      exact ⟨by rw [contains, builtin, Bool.true_or], not_onCycle_builtin builtin⟩
    · exact sound other ⟨name, asked, reached⟩

/-- A request has a plan exactly if all that it needs is known and on no cycle, and then its plan is ordered. -/
theorem resolvePlan_eq_ok (registry : Registry) (requested : List String) :
    ((∃ plan, registry.resolvePlan requested = .ok plan) ↔
        ∀ name, registry.Needs requested name → registry.contains name = true ∧ ¬ registry.OnCycle name) ∧
      ∀ plan, registry.resolvePlan requested = .ok plan → OrderedPlan registry requested plan := by
  refine ⟨⟨?_, resolvePlan_succeeds⟩, fun _ resolved => resolvePlan_ordered resolved⟩
  rintro ⟨plan, resolved⟩ name needed
  have member := ((resolvePlan_ordered resolved).names name).mpr (.inr needed)
  exact (resolvePlan_settled resolved).sound member

/-- Whatever is asked of the names of a settled order has a plan. -/
theorem resolvePlan_of_settled (settled : registry.Settled order) {requested : List String}
    (inOrder : ∀ name ∈ requested, name ∈ namesOf order) : ∃ plan, registry.resolvePlan requested = .ok plan := by
  apply resolvePlan_succeeds
  rintro name ⟨root, asked, reached⟩
  exact settled.sound (settled.closed (inOrder root asked) reached)

end Registry

end TradingStrategy

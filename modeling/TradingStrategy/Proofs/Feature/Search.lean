import Mathlib.Data.List.Nodup
import TradingStrategy.Feature.Plan
import TradingStrategy.Proofs.Outcome

/-!
The search for a plan without its marks.

Owns:
- `visit`: a visit that reads from the order and from the path to it what the search reads from marks and stack;
- `Tells`: what marks and stack say of path and order, kept from one feature to the next;
- `resolvePlan_eq_foldlM`: the search comes to the order, or to the error, of these visits.

Does not own what the order looks like, which is in `Proofs.Feature.Order`.
-/

namespace TradingStrategy

namespace Registry

variable {registry : Registry} {path : List String} {order more : List FeatureDescriptor} {name : String}

/-! ### Visits by path and order -/

/-- The cycle that a name closes with the path to it, whose nearest feature stands first. -/
def cycleOf (name : String) (path : List String) : List String :=
  name :: (path.takeWhile (· ≠ name)).reverse ++ [name]

theorem exists_split_takeWhile {names : List String} (member : name ∈ names) :
    ∃ rest, names = names.takeWhile (· ≠ name) ++ name :: rest := by
  induction names with
  | nil => exact absurd member List.not_mem_nil
  | cons first others inductionHypothesis =>
    by_cases same : first = name
    · refine ⟨others, ?_⟩
      rw [List.takeWhile_cons_of_neg (by simp [same]), same, List.nil_append]
    · obtain ⟨rest, split⟩ := inductionHypothesis ((List.mem_cons.mp member).resolve_left (Ne.symm same))
      refine ⟨rest, ?_⟩
      rw [List.takeWhile_cons_of_pos (by simp [same]), List.cons_append, ← split]

/-- The number of known names that are not on a path. -/
def offPath (registry : Registry) (path : List String) : Nat :=
  registry.names.countP fun name => name ∉ path

theorem offPath_cons_lt (known : name ∈ registry.names) (fresh : name ∉ path) :
    registry.offPath (name :: path) < registry.offPath path := by
  refine countP_lt known (by simp) (by simpa using fresh) ?_
  intro other off
  simp only [List.mem_cons, not_or, decide_eq_true_eq] at off ⊢
  exact off.2

/-- Puts a feature behind all that it depends on at the end of an order. The path leads from the feature back to the
requested one. -/
def visit (registry : Registry) (path : List String) (order : List FeatureDescriptor) (name : String) :
    Except RegistryError (List FeatureDescriptor) :=
  if order.any fun descriptor => descriptor.name == name then .ok order
  else if fresh : name ∈ path then .error (.cycle (cycleOf name path))
  else
    match known : registry.describe? name with
    | none => .error (registry.unknownError name path.head?)
    | some descriptor => do
        have := offPath_cons_lt (mem_names_of_describe? known) fresh
        let order ← descriptor.dependencies.foldlM (fun order dependency =>
          visit registry (name :: path) order dependency) order
        return order ++ [descriptor]
termination_by registry.offPath path

def namesOf (order : List FeatureDescriptor) : List String :=
  order.map FeatureDescriptor.name

theorem any_name : (order.any fun entry => entry.name == name) = true ↔ name ∈ namesOf order := by
  simp [namesOf]

theorem mem_namesOf_snoc {entry : FeatureDescriptor} :
    name ∈ namesOf (order ++ [entry]) ↔ name ∈ namesOf order ∨ name = entry.name := by
  rw [namesOf, List.map_append, List.mem_append, List.map_singleton, List.mem_singleton]
  rfl

theorem describe?_name {descriptor : FeatureDescriptor} (known : registry.describe? name = some descriptor) :
    descriptor.name = name := by
  unfold describe? at known
  split at known
  · rw [← Option.some.inj known]
  · obtain ⟨feature, _, same⟩ := Option.map_eq_some_iff.mp known
    rw [← same]

theorem visit_present (present : name ∈ namesOf order) : registry.visit path order name = .ok order := by
  rw [visit, if_pos (any_name.mpr present)]

theorem visit_onPath (absent : name ∉ namesOf order) (onPath : name ∈ path) :
    registry.visit path order name = .error (.cycle (cycleOf name path)) := by
  rw [visit, if_neg (mt any_name.mp absent), dif_pos onPath]

theorem visit_unknown (absent : name ∉ namesOf order) (fresh : name ∉ path) (unknown : registry.describe? name = none) :
    registry.visit path order name = .error (registry.unknownError name path.head?) := by
  rw [visit, if_neg (mt any_name.mp absent), dif_neg fresh]
  split
  · rfl
  · next known => simp [unknown] at known

theorem visit_known {descriptor : FeatureDescriptor} (absent : name ∉ namesOf order) (fresh : name ∉ path)
    (known : registry.describe? name = some descriptor) :
    registry.visit path order name =
      (descriptor.dependencies.foldlM (registry.visit (name :: path)) order).bind fun order =>
        .ok (order ++ [descriptor]) := by
  rw [visit, if_neg (mt any_name.mp absent), dif_neg fresh]
  split
  · next unknown => simp [unknown] at known
  · next found described =>
    have same : found = descriptor := by simpa [described] using known
    subst same
    rfl

end Registry

namespace Search

open Registry (namesOf)

variable {registry : Registry} {search : Search} {parent? : Option String} {path : List String}
  {order : List FeatureDescriptor} {name : String} {descriptor : FeatureDescriptor}

/-! ### The four ways of the search -/

theorem advance_done (done : search.mark? name = some .done) : search.advance registry parent? name = .ok search := by
  rw [advance, visit]
  split
  · rfl
  · next visiting => simp [done] at visiting
  · next unmarked => simp [done] at unmarked

theorem advance_visiting (visiting : search.mark? name = some .visiting) :
    search.advance registry parent? name = .error (.cycle (search.cycleTo name)) := by
  rw [advance, visit]
  split
  · next done => simp [visiting] at done
  · rfl
  · next unmarked => simp [visiting] at unmarked

theorem advance_unknown (unmarked : search.mark? name = none) (unknown : registry.describe? name = none) :
    search.advance registry parent? name = .error (registry.unknownError name parent?) := by
  rw [advance, visit]
  split
  · next done => simp [unmarked] at done
  · next visiting => simp [unmarked] at visiting
  · split
    · rfl
    · next known => simp [unknown] at known

/-- A fold over values that carry a proof is the fold over the values. -/
theorem foldlM_val {α β ε : Type} {property : α → Prop} {step : α → β → Except ε α}
    {carried : { value // property value } → β → Except ε { value // property value }}
    (same : ∀ value item, step value.val item = Subtype.val <$> carried value item)
    (items : List β) (start : { value // property value }) :
    items.foldlM step start.val = Subtype.val <$> items.foldlM carried start := by
  induction items generalizing start with
  | nil => rfl
  | cons first rest inductionHypothesis =>
    rw [List.foldlM_cons, List.foldlM_cons, same]
    cases carried start first with
    | error error => rfl
    | ok next => exact inductionHypothesis next

theorem advance_known (unmarked : search.mark? name = none) (known : registry.describe? name = some descriptor) :
    search.advance registry parent? name =
      (fun inside => inside.leave name descriptor) <$>
        descriptor.dependencies.foldlM (advance registry (some name)) (search.enter name) := by
  rw [advance, visit]
  split
  · next done => simp [unmarked] at done
  · next visiting => simp [unmarked] at visiting
  · split
    · next unknown => simp [known] at unknown
    · next found described =>
      have same : found = descriptor := by simpa [described] using known
      subst same
      have plain (outcome : Except RegistryError (search.enter name).Later)
          (follows : ∀ inside : (search.enter name).Later, (inside.val.leave name found).Follows search) :
          (do
            let later ← (do
              let inside ← outcome
              return (⟨inside.val.leave name found, follows inside⟩ : search.Later))
            return later.val) = (fun inside => inside.leave name found) <$> Subtype.val <$> outcome := by
        cases outcome <;> rfl
      refine (plain _ _).trans (congrArg _ (foldlM_val ?_ found.dependencies ⟨search.enter name, .refl _⟩).symm)
      intro inside dependency
      rw [advance]
      cases inside.val.visit registry (some name) dependency <;> rfl

/-! ### What marks and stack say -/

/-- A search stands for a path and an order: its stack is the path, the features of the order are done, those of the
path are being visited, and no other name is marked. -/
structure Tells (search : Search) (path : List String) (order : List FeatureDescriptor) : Prop where
  stack : search.stack = path.reverse
  ordered : search.order = order
  distinct : path.Nodup
  done : ∀ name, search.mark? name = some .done ↔ name ∈ namesOf order
  visiting : ∀ name, search.mark? name = some .visiting ↔ name ∈ path

theorem tells_start : start.Tells [] [] where
  stack := rfl
  ordered := rfl
  distinct := List.nodup_nil
  done _ := by simp [start, mark?, namesOf]
  visiting _ := by simp [start, mark?]

namespace Tells

theorem fresh (tells : search.Tells path order) (unmarked : search.mark? name = none) : name ∉ path := by
  rw [← tells.visiting, unmarked]
  exact nofun

theorem unmarked (tells : search.Tells path order) (absent : name ∉ namesOf order) (fresh : name ∉ path) :
    search.mark? name = none := by
  cases found : search.mark? name with
  | none => rfl
  | some mark =>
    cases mark with
    | visiting => exact absurd ((tells.visiting name).mp found) fresh
    | done => exact absurd ((tells.done name).mp found) absent

theorem enter (tells : search.Tells path order) (unmarked : search.mark? name = none) :
    (search.enter name).Tells (name :: path) order where
  stack := by rw [Search.enter, tells.stack, List.reverse_cons]
  ordered := tells.ordered
  distinct := List.nodup_cons.mpr ⟨tells.fresh unmarked, tells.distinct⟩
  done other := by
    rw [mark?_enter, ← tells.done]
    split
    · next same => simp [same, unmarked]
    · rfl
  visiting other := by
    rw [mark?_enter, List.mem_cons, ← tells.visiting]
    split
    · next same => simp [same]
    · next different => simp [different]

theorem leave (tells : search.Tells (name :: path) order) (named : descriptor.name = name) :
    (search.leave name descriptor).Tells path (order ++ [descriptor]) where
  stack := by rw [Search.leave, tells.stack, List.reverse_cons, List.dropLast_concat]
  ordered := by rw [Search.leave, tells.ordered]
  distinct := (List.nodup_cons.mp tells.distinct).2
  done other := by
    rw [mark?_leave, Registry.mem_namesOf_snoc, ← tells.done, named]
    split
    · next same => simp [same]
    · next different => simp [different]
  visiting other := by
    have onPath := tells.visiting other
    rw [mark?_leave]
    split
    · next same =>
      rw [same]
      simpa using (List.nodup_cons.mp tells.distinct).1
    · next different => rw [onPath, List.mem_cons, or_iff_right different]

/-- The stack is read from its bottom and the path from its nearest feature, but a name stands only once on them. -/
theorem cycleTo (tells : search.Tells path order) (onPath : name ∈ path) :
    search.cycleTo name = Registry.cycleOf name path := by
  obtain ⟨rest, split⟩ := Registry.exists_split_takeWhile onPath
  have distinct := tells.distinct
  rw [Search.cycleTo, Registry.cycleOf, tells.stack]
  generalize path.takeWhile (· ≠ name) = nearer at split ⊢
  subst split
  have notDeeper : rest.reverse.findIdx? (· == name) = none := by
    rw [List.findIdx?_eq_none_iff]
    intro other member
    have inRest := List.mem_reverse.mp member
    exact beq_false_of_ne fun same => (List.nodup_cons.mp distinct.of_append_right).1 (same ▸ inRest)
  have stack : (nearer ++ name :: rest).reverse = rest.reverse ++ name :: nearer.reverse := by simp
  have start : (nearer ++ name :: rest).reverse.findIdx? (· == name) = some rest.length := by
    rw [stack, List.findIdx?_append, notDeeper, List.findIdx?_cons]
    simp
  rw [start, stack, Option.getD_some, List.drop_left' (List.length_reverse)]

end Tells

/-! ### The search comes to what the visits come to -/

/-- Two outcomes agree: they are the same error, or the search that goes on tells the order. -/
inductive Agree (path : List String) :
    Except RegistryError Search → Except RegistryError (List FeatureDescriptor) → Prop where
  | ok {search : Search} {order : List FeatureDescriptor} (tells : search.Tells path order) :
      Agree path (.ok search) (.ok order)
  | error (error : RegistryError) : Agree path (.error error) (.error error)

namespace Agree

variable {advanced : Except RegistryError Search} {visited : Except RegistryError (List FeatureDescriptor)}

theorem leave (inside : Agree (name :: path) advanced visited) (named : descriptor.name = name) :
    Agree path ((fun inside => inside.leave name descriptor) <$> advanced)
      (visited.bind fun order => .ok (order ++ [descriptor])) := by
  cases inside with
  | ok tells => exact .ok (tells.leave named)
  | error error => exact .error error

theorem map_order (agree : Agree path advanced visited) : Search.order <$> advanced = visited := by
  cases agree with
  | ok tells => exact congrArg Except.ok tells.ordered
  | error error => rfl

end Agree

theorem foldlM_agree {advance : Search → String → Except RegistryError Search}
    {visit : List FeatureDescriptor → String → Except RegistryError (List FeatureDescriptor)} {names : List String}
    (each : ∀ search order name, search.Tells path order → Agree path (advance search name) (visit order name))
    (tells : search.Tells path order) : Agree path (names.foldlM advance search) (names.foldlM visit order) := by
  induction names generalizing search order with
  | nil => exact .ok tells
  | cons first rest inductionHypothesis =>
    rw [List.foldlM_cons, List.foldlM_cons]
    generalize visitedFirst : visit order first = outcome
    generalize advancedFirst : advance search first = advanced
    have agree := each search order first tells
    rw [visitedFirst, advancedFirst] at agree
    cases agree with
    | ok next => exact inductionHypothesis next
    | error error => exact .error error

/-- On every path, the search for a name comes to the order that a visit comes to, or to its error. -/
theorem advance_agrees (tells : search.Tells path order) :
    Agree path (search.advance registry path.head? name) (registry.visit path order name) := by
  induction path, order, name using Registry.visit.induct registry generalizing search with
  | case1 path order name present =>
    have among := Registry.any_name.mp present
    rw [advance_done ((tells.done name).mpr among), Registry.visit_present among]
    exact .ok tells
  | case2 path order name absent onPath =>
    rw [advance_visiting ((tells.visiting name).mpr onPath), Registry.visit_onPath (mt Registry.any_name.mpr absent) onPath,
      tells.cycleTo onPath]
    exact .error _
  | case3 path order name absent fresh unknown =>
    rw [advance_unknown (tells.unmarked (mt Registry.any_name.mpr absent) fresh) unknown,
      Registry.visit_unknown (mt Registry.any_name.mpr absent) fresh unknown]
    exact .error _
  | case4 path order name absent fresh descriptor known _ inductionHypothesis =>
    have notAmong := mt Registry.any_name.mpr absent
    have unmarked := tells.unmarked notAmong fresh
    rw [advance_known unmarked known, Registry.visit_known notAmong fresh known]
    have inside : Agree (name :: path) (descriptor.dependencies.foldlM (advance registry (some name)) (search.enter name))
        (descriptor.dependencies.foldlM (registry.visit (name :: path)) order) :=
      foldlM_agree (fun search order dependency tells => inductionHypothesis order dependency tells) (tells.enter unmarked)
    exact inside.leave (Registry.describe?_name known)

end Search

/-- The search comes to the order, or to the error, of visits that read the path and the order alone. -/
theorem Registry.resolvePlan_eq_foldlM (registry : Registry) (requested : List String) :
    registry.resolvePlan requested = (builtinFeatures ++ requested).foldlM (registry.visit []) [] := by
  have agree : Search.Agree [] ((builtinFeatures ++ requested).foldlM (Search.advance registry none) Search.start)
      ((builtinFeatures ++ requested).foldlM (registry.visit []) []) :=
    Search.foldlM_agree (fun _ _ _ tells => Search.advance_agrees tells) Search.tells_start
  exact agree.map_order

end TradingStrategy

import TradingStrategy.Feature.Registry

/-!
Feature plans.

Owns:
- the order in which requested features and all that they depend on are computed;
- the errors of a request that has no such order;
- a plan bound to its features, and the snapshot that it computes for a bar.

The order is that of a depth-first search: a feature stands behind its dependencies, and the builtin features stand in
front. The search marks a known feature before it visits what the feature depends on, so that it ends.
-/

namespace TradingStrategy

namespace Registry

theorem get?_name {registry : Registry} {name : String} {feature : Feature}
    (h : registry.get? name = some feature) : feature.name = name ∧ feature ∈ registry.features := by
  have found := List.find?_some h
  exact ⟨by simpa using found, List.mem_of_find?_eq_some h⟩

theorem mem_names_of_describe? {registry : Registry} {name : String} {descriptor : FeatureDescriptor}
    (h : registry.describe? name = some descriptor) : name ∈ registry.names := by
  unfold describe? at h
  split at h
  · next builtin =>
    simp only [isBuiltin, List.contains_iff_mem] at builtin
    simp [names, builtin]
  · cases found : registry.get? name with
    | none => rw [found] at h; simp at h
    | some feature =>
      have := get?_name found
      simp only [names, List.mem_append, List.mem_map]
      exact .inr ⟨feature, this.2, this.1⟩

theorem countP_lt {names : List String} {fewer more : String → Bool} {name : String} (member : name ∈ names)
    (gone : fewer name = false) (there : more name = true) (among : ∀ other, fewer other = true → more other = true) :
    names.countP fewer < names.countP more := by
  obtain ⟨before, after, split⟩ := List.append_of_mem member
  have inFront := List.countP_mono_left (l := before) fun other _ => among other
  have behind := List.countP_mono_left (l := after) fun other _ => among other
  simp only [split, List.countP_append, List.countP_cons, gone, there, Bool.false_eq_true, if_false, if_true]
  omega

/-- The error for a name that is not known, with the feature that asked for it, if one did. -/
def unknownError (registry : Registry) (name : String) (parent? : Option String) : RegistryError :=
  match parent? with
  | some feature => .unknownDependency feature name
  | none => .unknownFeatures [name] registry.names

end Registry

/-- How far a search is with a feature. -/
inductive Mark where
  | visiting
  | done
deriving DecidableEq

/-- A search for an order. The latest mark of a name stands first, and the stack leads from a requested name to the
feature that is being visited. -/
structure Search where
  marks : List (String × Mark)
  stack : List String
  order : List FeatureDescriptor

namespace Search

def start : Search :=
  ⟨[], [], []⟩

def mark? (search : Search) (name : String) : Option Mark :=
  search.marks.lookup name

/-- Goes into a feature. -/
def enter (search : Search) (name : String) : Search :=
  { search with marks := (name, .visiting) :: search.marks, stack := search.stack ++ [name] }

/-- Comes back from a feature, which then stands behind all that it depends on. -/
def leave (search : Search) (name : String) (descriptor : FeatureDescriptor) : Search :=
  ⟨(name, .done) :: search.marks, search.stack.dropLast, search.order ++ [descriptor]⟩

/-- The cycle that a feature of the stack closes. -/
def cycleTo (search : Search) (name : String) : List String :=
  search.stack.drop ((search.stack.findIdx? (· == name)).getD 0) ++ [name]

theorem mark?_enter {search : Search} {name other : String} :
    (search.enter name).mark? other = if other = name then some .visiting else search.mark? other := by
  by_cases same : other = name
  · simp [mark?, enter, same]
  · rw [if_neg same, mark?, enter, List.lookup_cons, beq_false_of_ne same]
    rfl

theorem mark?_leave {search : Search} {descriptor : FeatureDescriptor} {name other : String} :
    (search.leave name descriptor).mark? other = if other = name then some .done else search.mark? other := by
  by_cases same : other = name
  · simp [mark?, leave, same]
  · rw [if_neg same, mark?, leave, List.lookup_cons, beq_false_of_ne same]
    rfl

/-- What was marked still is. -/
def Follows (later search : Search) : Prop :=
  ∀ name, (search.mark? name).isSome → (later.mark? name).isSome

namespace Follows

variable {search later last : Search} {name : String} {descriptor : FeatureDescriptor}

theorem refl (search : Search) : search.Follows search :=
  fun _ => id

theorem trans (second : last.Follows later) (first : later.Follows search) : last.Follows search :=
  fun name marked => second name (first name marked)

theorem enter : (search.enter name).Follows search := by
  intro other marked
  rw [mark?_enter]
  split
  · rfl
  · exact marked

theorem leave : (search.leave name descriptor).Follows search := by
  intro other marked
  rw [mark?_leave]
  split
  · rfl
  · exact marked

end Follows

/-- The searches that a search can go on with. -/
abbrev Later (search : Search) : Type :=
  { later : Search // later.Follows search }

/-- The number of known names without a mark. -/
def unmarked (search : Search) (registry : Registry) : Nat :=
  registry.names.countP fun name => (search.mark? name).isNone

/-- A known name is marked only once, so that the search ends. -/
theorem unmarked_lt {registry : Registry} {search : Search} {name : String} (known : name ∈ registry.names)
    (fresh : search.mark? name = none) (inside : (search.enter name).Later) :
    inside.val.unmarked registry < search.unmarked registry := by
  refine Registry.countP_lt known ?_ (by rw [fresh]; rfl) ?_
  · have marked := inside.property name (by rw [mark?_enter, if_pos rfl]; rfl)
    rwa [Option.isNone_eq_false_iff]
  · intro other unmarked
    have before := mt ((inside.property.trans .enter) other)
    simp only [Option.isNone_iff_eq_none] at unmarked ⊢
    simpa [unmarked] using before

/-- Visits a feature for the one that declares it, if one does: all that it depends on is put in order in front of
it. -/
def visit (registry : Registry) (parent? : Option String) (search : Search) (name : String) :
    Except RegistryError search.Later :=
  match unmarked : search.mark? name with
  | some .done => .ok ⟨search, .refl search⟩
  | some .visiting => .error (.cycle (search.cycleTo name))
  | none =>
    match known : registry.describe? name with
    | none => .error (registry.unknownError name parent?)
    | some descriptor => do
        let inside ← descriptor.dependencies.foldlM (fun (inside : (search.enter name).Later) dependency => do
          have := unmarked_lt (Registry.mem_names_of_describe? known) unmarked inside
          let later ← visit registry (some name) inside.val dependency
          return ⟨later.val, later.property.trans inside.property⟩) ⟨search.enter name, .refl _⟩
        return ⟨inside.val.leave name descriptor, .trans .leave (.trans inside.property .enter)⟩
termination_by search.unmarked registry

/-- Visits a feature and goes on with the search behind it. -/
def advance (registry : Registry) (parent? : Option String) (search : Search) (name : String) :
    Except RegistryError Search :=
  return (← search.visit registry parent? name).val

end Search

/-- The order of the builtin features, the requested features and all that they depend on. -/
def Registry.resolvePlan (registry : Registry) (requested : List String) :
    Except RegistryError (List FeatureDescriptor) := do
  let search ← (builtinFeatures ++ requested).foldlM (Search.advance registry none) Search.start
  return search.order

/-- The features of a plan, without the builtin ones, in the order of computation. -/
structure Pipeline where
  steps : List Feature

namespace Pipeline

/-- The entry of a plan is taken from the bar and not computed. -/
def isTaken (descriptor : FeatureDescriptor) : Bool :=
  descriptor.kind == .builtin && isBuiltin descriptor.name

/-- The registered feature of an entry of a plan, or the name that is not registered. -/
def bind (registry : Registry) (descriptor : FeatureDescriptor) : Except String Feature :=
  match registry.get? descriptor.name with
  | some feature => .ok feature
  | none => .error descriptor.name

/-- Binds a plan to the features of a registry. A plan may name a feature that is not registered there; then that name
is the error. -/
def ofPlan (plan : List FeatureDescriptor) (registry : Registry) : Except String Pipeline := do
  let computed := plan.filter fun descriptor => !isTaken descriptor
  return ⟨← computed.mapM (bind registry)⟩

/-- Computes one feature and writes it into the snapshot. -/
def step (past : List Snapshot) (snapshot : Snapshot) (feature : Feature) : Snapshot :=
  snapshot.insert feature.name (feature.compute ⟨snapshot, past⟩)

/-- The snapshot of a bar, given the snapshots before it. -/
def compute (pipeline : Pipeline) (bar : Bar) (past : List Snapshot) : Snapshot :=
  pipeline.steps.foldl (step past) (Snapshot.ofBar bar)

end Pipeline

end TradingStrategy

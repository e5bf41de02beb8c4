import TradingStrategy.Proofs.Feature.Independence

/-!
Histories that forget.

Owns:
- `Pipeline.unforgotten`: the snapshots of bars over a history that never evicts one;
- that a pipeline of local features does not notice evictions beyond its reach;
- `default_eviction_invisible`: with at least forty-nine snapshots in the history, the features of the default
  catalogue have the values that they would have if nothing were ever evicted.
-/

namespace TradingStrategy

namespace Feature

open View (Alike)

/-- A local feature does not see what is evicted beyond its reach. -/
theorem Local.take {reach count : Nat} {feature : Feature} (isLocal : feature.Local reach) (past : 1 < reach)
    (near : reach ≤ count + 1) (current : Snapshot) (snapshots : List Snapshot) :
    feature.compute ⟨current, snapshots.take count⟩ = feature.compute ⟨current, snapshots⟩ := by
  have sameVisible : View.visible ⟨current, snapshots.take count⟩ reach = View.visible ⟨current, snapshots⟩ reach := by
    obtain ⟨before, rfl⟩ : ∃ before, reach = before + 1 := ⟨reach - 1, by omega⟩
    rw [View.visible, View.visible, List.take_succ_cons, List.take_succ_cons, List.take_take,
      Nat.min_eq_left (by omega)]
  apply isLocal
  constructor
  · rw [sameVisible]
  · intro name among
    rw [sameVisible]
  · rw [View.value?_visible past, View.value?_visible past, sameVisible]

end Feature

namespace Pipeline

variable {reach : Nat} {pipeline : Pipeline}

/-- The snapshots of bars, each computed over all that went before it, newest first. -/
def unforgotten (pipeline : Pipeline) : List Snapshot → List Bar → List Snapshot
  | _, [] => []
  | past, bar :: rest =>
      let snapshot := pipeline.compute bar past
      snapshot :: pipeline.unforgotten (snapshot :: past) rest

section
variable (areLocal : ∀ feature ∈ pipeline.steps, feature.Local reach) (past : 1 < reach)
include areLocal past

theorem compute_take {count : Nat} (near : reach ≤ count + 1) (bar : Bar) (snapshots : List Snapshot) :
    pipeline.compute bar (snapshots.take count) = pipeline.compute bar snapshots := by
  have folded : ∀ (steps : List Feature) (current : Snapshot), (∀ feature ∈ steps, feature.Local reach) →
      steps.foldl (step (snapshots.take count)) current = steps.foldl (step snapshots) current := by
    intro steps
    induction steps with
    | nil => exact fun _ _ => rfl
    | cons first rest inductionHypothesis =>
      intro current areLocal
      obtain ⟨firstLocal, restLocal⟩ := List.forall_mem_cons.mp areLocal
      rw [List.foldl_cons, List.foldl_cons, step, firstLocal.take past near]
      exact inductionHypothesis _ restLocal
  exact folded pipeline.steps (.ofBar bar) areLocal

/-- A history that holds the newest of all snapshots so far goes on to hold them, and the snapshots are the same. -/
theorem snapshots_eq_unforgotten {history : History} {all : List Snapshot} (near : reach ≤ history.capacity + 1)
    (newest : history.snapshots = all.take history.capacity) (bars : List Bar) :
    pipeline.snapshots history bars = pipeline.unforgotten all bars := by
  induction bars generalizing history all with
  | nil => rfl
  | cons bar rest inductionHypothesis =>
    have same : pipeline.compute bar history.snapshots = pipeline.compute bar all := by
      rw [newest]
      exact compute_take areLocal past near bar all
    have stillNewest : (history.push (pipeline.compute bar all)).snapshots =
        (pipeline.compute bar all :: all).take history.capacity := by
      obtain ⟨before, isCapacity⟩ : ∃ before, history.capacity = before + 1 := ⟨history.capacity - 1, by omega⟩
      rw [History.push, newest, isCapacity, List.take_succ_cons, List.take_succ_cons, List.take_take,
        Nat.min_eq_left (by omega)]
    rw [snapshots, unforgotten, same]
    exact congrArg _ (inductionHypothesis near stillNewest)

end

/-! ### The default catalogue -/

theorem mapM_registered {registry : Registry} {entries : List FeatureDescriptor} {steps : List Feature}
    (bound : entries.mapM (bind registry) = .ok steps) : ∀ feature ∈ steps, feature ∈ registry.features := by
  induction entries generalizing steps with
  | nil =>
    rw [← Except.ok.inj bound]
    simp
  | cons entry rest inductionHypothesis =>
    rw [List.mapM_cons] at bound
    obtain ⟨first, isFirst, bound⟩ := bind_eq_ok bound
    obtain ⟨others, areOthers, bound⟩ := bind_eq_ok bound
    rw [← Except.ok.inj bound]
    refine List.forall_mem_cons.mpr ⟨?_, inductionHypothesis areOthers⟩
    unfold bind at isFirst
    split at isFirst
    · next found =>
      rw [← Except.ok.inj isFirst]
      exact (Registry.get?_name found).2
    · contradiction

theorem ofPlan_registered {registry : Registry} {plan : List FeatureDescriptor}
    (bound : ofPlan plan registry = .ok pipeline) : ∀ feature ∈ pipeline.steps, feature ∈ registry.features := by
  obtain ⟨steps, areSteps, bound⟩ := bind_eq_ok bound
  rw [← Except.ok.inj bound]
  exact mapM_registered areSteps

/-- Every plan that the default registry resolves is bound to a pipeline. Whatever plan a pipeline of the default
catalogue comes from, a history of at least forty-nine snapshots gives it the snapshots of a history that never evicts
one, bar for bar, and so does every other such history. -/
theorem default_eviction_invisible :
    (∀ (requested : List String) (plan : List FeatureDescriptor), Registry.default.resolvePlan requested = .ok plan →
      ∃ pipeline, ofPlan plan .default = .ok pipeline) ∧
    ∀ (plan : List FeatureDescriptor) (pipeline : Pipeline), ofPlan plan .default = .ok pipeline →
      ∀ capacity, 49 ≤ capacity → capacity ≤ maxHistory → ∀ bars : List Bar,
        pipeline.snapshots (.empty capacity) bars = pipeline.unforgotten [] bars ∧
        ∀ other, 49 ≤ other → other ≤ maxHistory →
          pipeline.snapshots (.empty other) bars = pipeline.snapshots (.empty capacity) bars := by
  constructor
  · intro requested plan resolved
    obtain ⟨steps, bound, -⟩ := ofPlan_ready resolved
    exact ⟨⟨steps⟩, bound⟩
  · intro plan pipeline bound
    have areLocal : ∀ feature ∈ pipeline.steps, feature.Local 50 := fun feature member =>
      Registry.default_local feature (ofPlan_registered bound feature member)
    have unnoticed : ∀ capacity, 49 ≤ capacity → capacity ≤ maxHistory → ∀ bars : List Bar,
        pipeline.snapshots (.empty capacity) bars = pipeline.unforgotten [] bars := by
      intro capacity enough inRange bars
      have kept : (History.empty capacity).capacity = capacity := by
        simp only [History.empty]
        omega
      apply snapshots_eq_unforgotten areLocal (by decide)
      · omega
      · exact List.take_nil.symm
    intro capacity enough inRange bars
    refine ⟨unnoticed capacity enough inRange bars, ?_⟩
    intro other otherEnough otherInRange
    rw [unnoticed other otherEnough otherInRange, unnoticed capacity enough inRange]

/-- The longest average of the catalogue, with features that continue from their own values, over the shortest history
that is long enough for it. -/
theorem long_averages_survive_eviction :
    ∃ plan pipeline, Registry.default.resolvePlan ["sma_50", "ema_50", "rsi_14", "obv", "vwap"] = .ok plan ∧
      ofPlan plan .default = .ok pipeline ∧ 49 ≤ 49 ∧ 49 ≤ maxHistory ∧ ∀ bars : List Bar,
        pipeline.snapshots (.empty 49) bars = pipeline.unforgotten [] bars ∧
        pipeline.snapshots (.empty 100) bars = pipeline.snapshots (.empty 49) bars := by
  have known : ∀ name ∈ ["sma_50", "ema_50", "rsi_14", "obv", "vwap"], Registry.default.contains name = true := by
    intro name asked
    have listed : ∀ name ∈ ["sma_50", "ema_50", "rsi_14", "obv", "vwap"], name ∈ defaultOrder := by decide
    exact default_contains.mpr (listed name asked)
  obtain ⟨plan, resolved⟩ := default_plans known
  obtain ⟨pipeline, bound⟩ := default_eviction_invisible.1 _ plan resolved
  refine ⟨plan, pipeline, resolved, bound, by decide, by decide, fun bars => ?_⟩
  obtain ⟨whole, others⟩ := default_eviction_invisible.2 plan pipeline bound 49 (by decide) (by decide) bars
  exact ⟨whole, others 100 (by decide) (by decide)⟩

end Pipeline

end TradingStrategy

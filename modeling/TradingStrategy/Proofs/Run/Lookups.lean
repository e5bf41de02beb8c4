import TradingStrategy.Proofs.Engine.Turns
import TradingStrategy.Proofs.Run.Reach

/-!
Lookups in runs of compiled strategies.

Owns:
- the binding of a compiled strategy to its registry, which never misses a feature;
- that every name that a rule or a price may read is known in every state that a run reaches, at the moment at which it
  is read;
- `compiled_lookups_succeed`: the only evaluation errors of a run are those that no check of scopes can foresee.
-/

namespace TradingStrategy

/-- An engine whose strategy follows a blueprint and whose pipeline computes every declared feature. -/
structure Engine.Serves (engine : Engine) (blueprint : Blueprint) : Prop where
  follows : engine.strategy.Follows blueprint
  computes : ∀ name ∈ blueprint.declared, isBuiltin name = false → name ∈ engine.pipeline.steps.map Feature.name

/-- An error that the checks of a compilation do not rule out: plans and features are known, and evaluation errors are
such as no check of scopes can foresee. -/
def EngineError.IsUnforeseeable : EngineError → Prop
  | guard error => error.IsUnforeseeable
  | resolve error => error.IsUnforeseeable
  | missingFeature _ | unknownPlan _ => False
  | outOfOrder .. | symbolMismatch .. | venue _ => True

/-- No check of a compilation can rule out a bar that is turned away. -/
theorem EngineError.isUnforeseeable_of_isRejection (error : EngineError) (turnsAway : error.isRejection = true) :
    error.IsUnforeseeable := by
  cases error with
  | outOfOrder | symbolMismatch => trivial
  | guard | resolve | venue | missingFeature | unknownPlan => contradiction

namespace Engine

variable {σ : Type} {engine : Engine} {blueprint : Blueprint} {venue : Venue σ} {state : EngineState} {world : World σ}

theorem ofStrategy_serves {strategy : Strategy} {registry : Registry} (follows : strategy.Follows blueprint)
    (planned : blueprint.PlannedBy registry strategy.featurePlan) (options : EngineOptions) :
    ∃ engine, ofStrategy strategy registry options = .ok engine ∧ engine.Serves blueprint := by
  obtain ⟨pipeline, bound, names⟩ := Pipeline.ofPlan_binds planned.backed
  refine ⟨⟨strategy, pipeline, options⟩, by simp only [ofStrategy, bound], follows, ?_⟩
  intro name declared notBuiltin
  obtain ⟨entry, inPlan, named⟩ := planned.covered name declared notBuiltin
  rw [names, List.mem_map]
  refine ⟨entry, List.mem_filter.mpr ⟨inPlan, ?_⟩, named⟩
  simp [Pipeline.isTaken, named, notBuiltin]

theorem observed_serves (serves : engine.Serves blueprint) (holds : state.Holds blueprint) (bar : Bar) :
    (engine.observed state bar).history.Serves blueprint.declared := by
  obtain ⟨armTimer, entryTimer, log, same⟩ := observed_eq engine state bar
  rw [same]
  refine ⟨engine.pipeline.compute bar state.history.snapshots, ?_, ?_⟩
  · obtain ⟨capacity, exact⟩ := Nat.exists_eq_succ_of_ne_zero (Nat.ne_of_gt holds.capacity)
    simp [History.latest?, History.push, exact]
  · intro name known
    rw [Pipeline.compute_get?]
    rcases known with declared | builtin
    · cases builtin : isBuiltin name with
      | true => exact .inl rfl
      | false => exact .inr (serves.computes name declared builtin)
    · exact .inl builtin

/-- The frozen plan gives the runtime variables. -/
theorem bindings_names (holds : state.Holds blueprint) (hasTarget : blueprint.plan.targets ≠ [])
    (busy : state.stage ≠ .idle) : state.bindings.map Prod.fst = runtimeVariables := by
  obtain ⟨plan, frozen, history, resolved⟩ := holds.frozen busy
  rw [holds.bound, frozen]
  apply ResolvedPlan.bindings_names
  apply List.length_pos_iff.mp
  rw [(OrderPlan.resolve_keeps resolved).2]
  exact List.length_pos_iff.mpr hasTarget

/-- The rule of a stage is read where all that it may name is known. -/
theorem rule_unforeseeable (checked : blueprint.Checked) (holds : state.Holds blueprint)
    (serves : state.history.Serves blueprint.declared) {condition : Expr}
    (rule : blueprint.rule? state.stage = some condition) {error : EvalError}
    (failed : evaluateBool state.context condition = .error error) : error.IsUnforeseeable := by
  have frozen (scope : Scope) (busy : state.stage ≠ .idle) (narrow : ∀ name ∈ scope.visible, name ∈ runtimeVariables) :
      state.context.Serves blueprint.declared scope := by
    have names := bindings_names holds checked.plan.hasTarget busy
    rw [holds.context_eq]
    exact serves.context (names ▸ narrow) (by simp [names])
  cases stage : state.stage with
  | idle =>
    rw [stage] at rule
    obtain rfl := Option.some.inj rule
    have unbound : state.bindings = [] := by
      rw [holds.bound, holds.idle stage]
      rfl
    rw [holds.context_eq] at failed
    exact evaluateBool_unforeseeable
      (serves.context (by simp [Scope.visible]) (by simp [unbound])) checked.arm failed
  | armed =>
    rw [stage] at rule
    obtain rfl := Option.some.inj rule
    exact evaluateBool_unforeseeable (frozen .trigger (by simp [stage]) fun _ member => member) checked.trigger failed
  | managing =>
    rw [stage] at rule
    obtain rfl := Option.some.inj rule
    exact evaluateBool_unforeseeable (frozen .invalidate (by simp [stage]) fun _ member => member)
      checked.invalidate failed
  | placed | exited =>
    rw [stage] at rule
    contradiction

theorem Advances.unforeseeable {timestamp : Calendar.Instant} {turn : Turn σ}
    (advances : Advances engine blueprint venue state timestamp world turn) (checked : blueprint.Checked)
    (holds : state.Holds blueprint) (serves : state.history.Serves blueprint.declared) {error : EngineError}
    (failed : turn.result = .error error) : error.IsUnforeseeable := by
  cases advances with
  | undecided condition inner rule evaluated =>
    rw [← Except.error.inj failed]
    exact rule_unforeseeable checked holds serves rule evaluated
  | unresolved inner idle fires unresolved =>
    rw [← Except.error.inj failed]
    exact OrderPlan.resolve_unforeseeable serves checked.plan unresolved
  | unsubmitted =>
    rw [← Except.error.inj failed]
    trivial
  | unqueried inner after placed asked =>
    obtain ⟨cause, same⟩ := ownOrders_error asked
    rw [← Except.error.inj failed, same]
    trivial
  | uncancelled inner after managing fires asked =>
    obtain ⟨cause, same⟩ := ownOrders_error asked
    rw [← Except.error.inj failed, same]
    trivial
  | stayed | armed | refused | placed | gaveUp | waited | managed | exited | startedOver => contradiction

theorem processBar_unforeseeable (serves : engine.Serves blueprint) (checked : blueprint.Checked)
    (holds : state.Holds blueprint) {bar : Bar} {error : EngineError}
    (failed : (engine.processBar venue state bar world).result = .error error) : error.IsUnforeseeable := by
  generalize turned : engine.processBar venue state bar world = turn at failed
  cases turned ▸ processBar_processes serves.follows holds bar with
  | rejected inner why =>
    rw [← Except.error.inj failed]
    exact inner.isUnforeseeable_of_isRejection (rejection?_isRejection why)
  | skipped => contradiction
  | looked turn accepted opens advances =>
    obtain ⟨log, same⟩ := logError_eq bar.timestamp turn
    rw [same] at failed
    exact advances.unforeseeable checked (observed_holds holds bar) (observed_serves serves holds bar) failed

end Engine

/-- A compiled strategy is bound to its registry, and no lookup of its run fails: whatever the bars and the venue, an
error is never about an unknown plan, feature, name or function or about a number of arguments, and an invalid offset
comes from a computed index or from the past of a runtime variable. -/
theorem compiled_lookups_succeed {registry : Registry} {json : Json} {strategy : Strategy}
    (compiled : Strategy.ofDocument registry json = .ok strategy) (options : EngineOptions) :
    ∃ engine, Engine.ofStrategy strategy registry options = .ok engine ∧
      ∀ (σ : Type) (venue : Venue σ) (world : World σ) (bars : List Bar) (bar : Bar) (error : EngineError),
        (engine.turnAfter venue world bars bar).result = .error error → error.IsUnforeseeable := by
  obtain ⟨blueprint, follows, checked, planned⟩ := Strategy.ofDocument_follows compiled
  obtain ⟨engine, bound, serves⟩ := Engine.ofStrategy_serves follows planned options
  refine ⟨engine, bound, ?_⟩
  intro σ venue world bars bar error failed
  exact Engine.processBar_unforeseeable serves checked (Engine.after_holds serves.follows venue world bars) failed

/-! ### The breakout strategy on some bars -/

/-- A test of the engine that a document is bound to. -/
def Engine.passes (registry : Registry) (json : Json) (options : EngineOptions) (test : Engine → Bool) : Bool :=
  match Strategy.ofDocument registry json with
  | .error _ => false
  | .ok strategy =>
      match Engine.ofStrategy strategy registry options with
      | .error _ => false
      | .ok engine => test engine

theorem Engine.passes_binds {registry : Registry} {json : Json} {options : EngineOptions} {test : Engine → Bool}
    (passed : Engine.passes registry json options test = true) :
    ∃ strategy engine, Strategy.ofDocument registry json = .ok strategy ∧
      Engine.ofStrategy strategy registry options = .ok engine ∧ test engine = true := by
  unfold Engine.passes at passed
  split at passed
  · contradiction
  · next strategy compiled =>
    split at passed
    · contradiction
    · next engine bound => exact ⟨strategy, engine, compiled, bound, passed⟩

/-- Four rising bars: the breakout strategy arms on the first one, and its trigger fires on the second and the third. -/
def risingBars : List Bar :=
  [⟨"ACME", ⟨60, 0⟩, 100, 101, 99, 101, 1000⟩, ⟨"ACME", ⟨120, 0⟩, 101, 103, 100, 102, 1000⟩,
    ⟨"ACME", ⟨180, 0⟩, 102, 104, 101, 103, 1000⟩, ⟨"ACME", ⟨240, 0⟩, 103, 105, 102, 104, 1000⟩]

/-- Live, with a second for each request. -/
def liveOptions : EngineOptions :=
  ⟨⟨false, 1000⟩, .regular, maxHistory⟩

/-- The lookups of the breakout strategy, whose trigger and prices read runtime variables, succeed in every run. -/
theorem breakout_lookups_succeed :
    ∃ strategy, Strategy.ofDocument .empty breakoutDocument = .ok strategy ∧
      ∃ engine, Engine.ofStrategy strategy .empty .default = .ok engine ∧
        ∀ (σ : Type) (venue : Venue σ) (world : World σ) (bars : List Bar) (bar : Bar) (error : EngineError),
          (engine.turnAfter venue world bars bar).result = .error error → error.IsUnforeseeable := by
  obtain ⟨strategy, compiled⟩ := breakoutDocument_compiles
  exact ⟨strategy, compiled, compiled_lookups_succeed compiled .default⟩

end TradingStrategy

import TradingStrategy.Proofs.Engine.Turns
import TradingStrategy.Proofs.Run.Lookups
import TradingStrategy.Venue.Paper

/-!
What the name of a declared feature stands for in a run.

Owns:
- `EngineState.Consults`: the contexts in which the expressions of each place are evaluated when a bar is looked at;
- `OrderPlan.resolve_consults`: the resolution of a plan evaluates its prices in those contexts;
- `EngineState.Consults.bound`: the variables that such a context binds are those that its place sees;
- `declared_names_read_features`: in every run, a declared name stands for its feature in the newest snapshot, unless
  its place sees a runtime variable of that name.

Neither a registry nor a document refuses the names of runtime variables, and a lookup finds a variable first. So a
feature that is called `stop` is read by the arming rule, and as soon as a plan is frozen the same text reads a price.
-/

namespace TradingStrategy

/-! ### Contexts -/

/-- The place of the rule that is evaluated in a stage. -/
def Stage.ruleScope? : Stage → Option Scope
  | .idle => some .arm
  | .armed => some .trigger
  | .managing => some .invalidate
  | .placed | .exited => none

open OrderPlan (zoneBindings)

/-- The contexts in which the expressions of a place are evaluated in a state: that of the state for the rule of its
stage, and for prices the history with the prices that are fixed before them, whatever these are. -/
inductive EngineState.Consults (state : EngineState) : Scope → EvalContext → Prop where
  | rule {scope : Scope} (ruled : state.stage.ruleScope? = some scope) : Consults state scope state.context
  | zone : Consults state .entryZone (.ofHistory state.history)
  | stop (low high : Float) : Consults state .stopPrice ⟨state.history, zoneBindings low high⟩
  | target (low high stop : Float) :
      Consults state .target ⟨state.history, zoneBindings low high ++ [("stop", stop)]⟩

namespace OrderPlan

variable {plan : OrderPlan}

/-- The prices of a plan that is resolved in a state are the values of its slots in contexts of their places. -/
theorem resolve_consults {state : EngineState} {resolved : ResolvedPlan}
    (done : plan.resolve state.history = .ok resolved) :
    (∃ context, state.Consults .entryZone context ∧ plan.zoneLow.value context = .ok resolved.entryLow ∧
      plan.zoneHigh.value context = .ok resolved.entryHigh) ∧
      (∃ context, state.Consults .stopPrice context ∧ plan.stop.value context = .ok resolved.stop) ∧
      ∃ context, state.Consults .target context ∧ plan.targets.map (fun target => target.price.value context) =
        resolved.targets.map fun target => .ok target.price := by
  have steps := resolve_steps done
  refine ⟨⟨_, .zone, resolveSlot_reads steps.low, resolveSlot_reads steps.high⟩, ?_, ?_⟩
  · exact ⟨_, .stop resolved.entryLow resolved.entryHigh, resolveSlot_reads steps.stop⟩
  · exact ⟨_, .target resolved.entryLow resolved.entryHigh resolved.stop, resolveTargets_reads steps.targets⟩

end OrderPlan

/-! ### Bound names -/

namespace EngineState

variable {state : EngineState} {blueprint : Blueprint} {scope : Scope} {context : EvalContext}

theorem Consults.history_eq (consults : state.Consults scope context) : context.history = state.history := by
  cases consults with
  | zone | stop | target => rfl
  | rule => exact state.context_history

/-- The variables that are bound in a place are those that the place sees. -/
theorem Consults.bound (consults : state.Consults scope context) (holds : state.Holds blueprint)
    (hasTarget : blueprint.plan.targets ≠ []) (name : String) :
    name ∈ context.bindings.map Prod.fst ↔ name ∈ scope.visible := by
  cases consults with
  | zone => rfl
  | stop low high =>
    simp only [zoneBindings, Scope.visible, List.map_cons, List.map_nil, List.mem_cons, List.not_mem_nil, or_false]
    grind
  | target low high stop =>
    simp only [zoneBindings, Scope.visible, List.cons_append, List.nil_append, List.map_cons, List.map_nil,
      List.mem_cons, List.not_mem_nil, or_false]
    grind
  | rule ruled =>
    have frozen (busy : state.stage ≠ .idle) : state.context.bindings.map Prod.fst = runtimeVariables := by
      rw [holds.context_eq]
      exact Engine.bindings_names holds hasTarget busy
    cases stage : state.stage with
    | idle =>
      rw [stage] at ruled
      rw [← Option.some.inj ruled]
      have unbound : state.context.bindings = [] := by
        rw [holds.context_eq, holds.bound, holds.idle stage]
        rfl
      rw [unbound]
      rfl
    | armed | managing =>
      rw [stage] at ruled
      rw [← Option.some.inj ruled, frozen (by simp [stage])]
      rfl
    | placed | exited =>
      rw [stage] at ruled
      contradiction

end EngineState

namespace EvalContext

variable {context : EvalContext} {name : String}

/-- A bound name stands for its variable, whatever the snapshots have. -/
theorem evaluate_bound (bound : name ∈ context.bindings.map Prod.fst) :
    ∃ price, valueOf? name context.bindings = some price ∧
      evaluate context (.identifier name) = .ok (.number price) := by
  obtain ⟨price, found⟩ := Option.isSome_iff_exists.mp ((Pipeline.valueOf?_isSome name context.bindings).mpr bound)
  refine ⟨price, found, ?_⟩
  rw [evaluate, lookup]
  simp only [found, Nat.lt_irrefl, if_false]
  rfl

/-- Any other name stands for its feature in the newest snapshot. -/
theorem evaluate_unbound (unbound : name ∉ context.bindings.map Prod.fst) {snapshot : Snapshot} {value : Float}
    (latest : context.history.latest? = some snapshot) (present : snapshot.get? name = some value) :
    evaluate context (.identifier name) = .ok (.number value) := by
  have none : valueOf? name context.bindings = none :=
    Option.not_isSome_iff_eq_none.mp (mt (Pipeline.valueOf?_isSome name context.bindings).mp unbound)
  have newest : context.history.value? name 0 = some value := by
    rw [History.value?, History.get?, ← List.head?_eq_getElem?]
    rw [History.latest?] at latest
    rw [latest]
    exact present
  rw [evaluate, lookup]
  simp only [none, latest, Option.bind_some, present, newest, Option.getD_some]
  rfl

end EvalContext

namespace StrategyDocument

/-- A validated document that compiles is bound to an engine that computes every declared feature. -/
theorem compile_serves {registry : Registry} {json : Json} {document : StrategyDocument} {strategy : Strategy}
    (valid : validate json = .ok document) (compiled : document.compile registry = .ok strategy)
    (options : EngineOptions) :
    ∃ engine blueprint, Engine.ofStrategy strategy registry options = .ok engine ∧ engine.Serves blueprint ∧
      blueprint.declared = document.featureNames ∧ blueprint.plan.targets ≠ [] := by
  obtain ⟨somePlan, targets⟩ := validate_plans valid
  obtain ⟨blueprint, follows, checked, _⟩ := compile_follows somePlan targets compiled
  obtain ⟨featurePlan, resolved, planned⟩ := (compile_parts compiled).featurePlan
  let declaring : Blueprint := { blueprint with declared := document.featureNames }
  have declaringFollows : strategy.Follows declaring := ⟨follows.start, follows.transitions, follows.orderPlan?⟩
  have declaringPlanned : declaring.PlannedBy registry strategy.featurePlan := planned ▸ compile_planned resolved rfl
  obtain ⟨engine, bound, serves⟩ := Engine.ofStrategy_serves declaringFollows declaringPlanned options
  exact ⟨engine, declaring, bound, serves, rfl, checked.plan.hasTarget⟩

end StrategyDocument

/-- What a declared name stands for in a run of a document that compiles. Over every registry, every venue and all bars,
the newest snapshot has a value for it in every state in which a bar is looked at. In a place that sees no variable of
that name, the name stands for this value, and otherwise for the price that the variable is bound to. -/
theorem declared_names_read_features {registry : Registry} {json : Json} {document : StrategyDocument}
    {strategy : Strategy} (valid : StrategyDocument.validate json = .ok document)
    (compiled : document.compile registry = .ok strategy) (options : EngineOptions) :
    ∃ engine, Engine.ofStrategy strategy registry options = .ok engine ∧
      ∀ (σ : Type) (venue : Venue σ) (world : World σ) (bars : List Bar) (bar : Bar),
        let state := engine.looked (engine.after venue world bars).state bar
        ∀ scope context, state.Consults scope context → ∀ name ∈ document.featureNames,
          ∃ snapshot value, state.history.latest? = some snapshot ∧ snapshot.get? name = some value ∧
            (name ∉ scope.visible → evaluate context (.identifier name) = .ok (.number value)) ∧
            (name ∈ scope.visible → ∃ price, valueOf? name context.bindings = some price ∧
              evaluate context (.identifier name) = .ok (.number price)) := by
  obtain ⟨engine, blueprint, bound, serves, declares, hasTarget⟩ :=
    StrategyDocument.compile_serves valid compiled options
  refine ⟨engine, bound, fun σ venue world bars bar => ?_⟩
  intro state scope context consults name declared
  have holdsBefore := Engine.after_holds serves.follows venue world bars
  have holds : state.Holds blueprint := by
    have observed : (engine.observed _ bar).Holds blueprint := Engine.observed_holds holdsBefore bar
    rwa [Engine.observed_eq_looked] at observed
  have served : state.history.Serves blueprint.declared := by
    have observed := Engine.observed_serves serves holdsBefore bar
    rwa [Engine.observed_eq_looked] at observed
  obtain ⟨snapshot, latest, present⟩ := served
  obtain ⟨value, isValue⟩ := Option.isSome_iff_exists.mp (present name (.inl (declares ▸ declared)))
  have bindsVisible := consults.bound holds hasTarget name
  refine ⟨snapshot, value, latest, isValue, ?_, ?_⟩
  · intro unseen
    rw [← consults.history_eq] at latest
    exact EvalContext.evaluate_unbound (mt bindsVisible.mp unseen) latest isValue
  · exact fun seen => EvalContext.evaluate_bound (bindsVisible.mpr seen)

/-! ### A feature with the name of a variable -/

/-- A registry with one feature, which is a thousand at every bar. -/
def levelRegistry (name : String) : Registry :=
  ⟨[.constant name .indicator [] 1000.0]⟩

/-- The breakout strategy with a declared feature. -/
def breakoutWithFeature (name : String) : Json :=
  match breakoutDocument with
  | .object fields =>
      .object (fields ++ [("features", .array [.object [("name", .string name), ("type", .string "indicator")]])])
  | other => other

/-- The state in which a bar is looked at behind the first rising bars. -/
def Engine.lookedAfter (engine : Engine) (count : Nat) (bar : Bar) : EngineState :=
  engine.looked (engine.after PaperScript.plain.venue ⟨0, .empty⟩ (risingBars.take count)).state bar

/-- The second rising bar. -/
def secondBar : Bar :=
  ⟨"ACME", ⟨120, 0⟩, 101, 103, 100, 102, 1000⟩

set_option maxRecDepth 100000 in
/-- A feature that is called `stop` is registered, declared and compiled. The idle strategy reads a thousand, and the
armed one reads the stop of its plan, although the newest snapshot still has a thousand. -/
theorem stop_feature_is_shadowed :
    ∃ strategy engine,
      Registry.empty.register (.constant "stop" .indicator [] 1000.0) = .ok (levelRegistry "stop") ∧
      Strategy.ofDocument (levelRegistry "stop") (breakoutWithFeature "stop") = .ok strategy ∧
      Engine.ofStrategy strategy (levelRegistry "stop") liveOptions = .ok engine ∧
      (engine.lookedAfter 0 secondBar).stage = .idle ∧
      (evaluate (engine.lookedAfter 0 secondBar).context (.identifier "stop")).toOption = some (.number 1000.0) ∧
      (engine.lookedAfter 1 secondBar).stage = .armed ∧
      (engine.lookedAfter 1 secondBar).history.value? "stop" 0 = some 1000.0 ∧
      (evaluate (engine.lookedAfter 1 secondBar).context (.identifier "stop")).toOption = some (.number 96.0) := by
  have passed : Engine.passes (levelRegistry "stop") (breakoutWithFeature "stop") liveOptions (fun engine => decide (
      (engine.lookedAfter 0 secondBar).stage = .idle ∧
      (evaluate (engine.lookedAfter 0 secondBar).context (.identifier "stop")).toOption = some (.number 1000.0) ∧
      (engine.lookedAfter 1 secondBar).stage = .armed ∧
      (engine.lookedAfter 1 secondBar).history.value? "stop" 0 = some 1000.0 ∧
      (evaluate (engine.lookedAfter 1 secondBar).context (.identifier "stop")).toOption = some (.number 96.0))) =
        true := by decide +kernel
  obtain ⟨strategy, engine, compiled, bound, read⟩ := Engine.passes_binds passed
  exact ⟨strategy, engine, rfl, compiled, bound, of_decide_eq_true read⟩

set_option maxRecDepth 100000 in
/-- Under a name of its own the same feature is read by the armed strategy, too. -/
theorem level_feature_is_read :
    ∃ document strategy engine, StrategyDocument.validate (breakoutWithFeature "level") = .ok document ∧
      document.compile (levelRegistry "level") = .ok strategy ∧
      Engine.ofStrategy strategy (levelRegistry "level") liveOptions = .ok engine ∧
      (engine.lookedAfter 1 secondBar).stage = .armed ∧
      evaluate (engine.lookedAfter 1 secondBar).context (.identifier "level") = .ok (.number 1000.0) := by
  have passed : Engine.passes (levelRegistry "level") (breakoutWithFeature "level") liveOptions (fun engine => decide (
      (engine.lookedAfter 1 secondBar).stage = .armed ∧
      ((engine.lookedAfter 1 secondBar).history.latest?.bind fun snapshot => snapshot.get? "level") =
        some 1000.0)) = true := by decide +kernel
  have declares : (StrategyDocument.validate (breakoutWithFeature "level")).toOption.any (fun document =>
      decide ("level" ∈ document.featureNames)) = true := by decide +kernel
  obtain ⟨document, valid, declared⟩ := ok_of_any declares
  obtain ⟨strategy, engine, compiled, bound, tests⟩ := Engine.passes_binds passed
  obtain ⟨armed, newest⟩ := of_decide_eq_true tests
  obtain ⟨other, otherValid, compiled⟩ := bind_eq_ok compiled
  rw [valid] at otherValid
  obtain rfl := Except.ok.inj otherValid
  obtain ⟨another, anotherBound, reads⟩ := declared_names_read_features valid compiled liveOptions
  rw [bound] at anotherBound
  obtain rfl := Except.ok.inj anotherBound
  have consults : (engine.lookedAfter 1 secondBar).Consults .trigger (engine.lookedAfter 1 secondBar).context :=
    .rule (by rw [armed]; rfl)
  obtain ⟨snapshot, value, latest, present, unshadowed, _⟩ := reads PaperBook PaperScript.plain.venue ⟨0, .empty⟩
    (risingBars.take 1) secondBar .trigger _ consults "level" (of_decide_eq_true declared)
  have isLevel : value = 1000.0 := by
    have there : (engine.lookedAfter 1 secondBar).history.latest? = some snapshot := latest
    rw [there, Option.bind_some, present] at newest
    exact Option.some.inj newest
  exact ⟨document, strategy, engine, valid, compiled, bound, armed, isLevel ▸ unshadowed (by decide)⟩

end TradingStrategy

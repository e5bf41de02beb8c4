import TradingStrategy.Proofs.Engine.Stages

/-!
A step has one end.

Owns: that an engine whose premises for an end of a step are given takes exactly that end. With `advance_advances` the
ends of a step are characterized.
-/

namespace TradingStrategy

/-- A stage with a rule is left by it first, and an armed strategy may also give up. -/
theorem Strategy.Follows.transitionsFrom_ruled {strategy : Strategy} {blueprint : Blueprint}
    (follows : strategy.Follows blueprint) {stage : Stage} {condition : Expr}
    (rule : blueprint.rule? stage = some condition) :
    ∃ first, first.guard = .expression condition ∧
      strategy.transitionsFrom stage = first :: if stage = .armed then [Blueprint.giveUp] else [] := by
  cases stage with
  | idle => exact ⟨blueprint.arming, congrArg Guard.expression (Option.some.inj rule), follows.transitionsFrom_idle⟩
  | armed =>
    exact ⟨blueprint.placing strategy.execution.entryTimeoutBars, congrArg Guard.expression (Option.some.inj rule),
      follows.transitionsFrom_armed⟩
  | managing =>
    exact ⟨blueprint.exiting, congrArg Guard.expression (Option.some.inj rule), follows.transitionsFrom_managing⟩
  | placed | exited => contradiction

namespace Engine

variable {σ : Type} {engine : Engine} {blueprint : Blueprint} {venue : Venue σ} {state : EngineState}
  {timestamp : Calendar.Instant} {world : World σ} {turn : Turn σ}

/-- A step whose premises are given for one of the ends comes to that end. -/
theorem Advances.advance_eq (follows : engine.strategy.Follows blueprint) (holds : state.Holds blueprint)
    (advances : Advances engine blueprint venue state timestamp world turn) :
    engine.advance venue state timestamp world = turn := by
  have submits : ∀ plan, state.frozen = some plan → state.stage = .armed →
      engine.planToSubmit state ⟨none, none, [], []⟩ blueprint.plan.id = .ok plan := by
    intro plan frozen armed
    obtain ⟨found, same, history, resolved⟩ := holds.frozen (by simp [armed])
    obtain rfl : plan = found := Option.some.inj (frozen.symm.trans same)
    simp only [planToSubmit, frozen, Option.or, (OrderPlan.resolve_keeps resolved).1, if_true]
  unfold advance
  cases advances with
  | undecided condition error rule failed =>
    obtain ⟨first, guarded, listed⟩ := follows.transitionsFrom_ruled rule
    rw [listed, select_undecided guarded failed]
  | stayed condition rule isFalse patient =>
    obtain ⟨first, guarded, listed⟩ := follows.transitionsFrom_ruled rule
    rw [listed, select_passes guarded isFalse]
    by_cases armed : state.stage = .armed
    · have notYet : (state.armTimer == some 0) = false := by simpa using patient armed
      simp only [armed, if_true, select, guardHolds, Blueprint.giveUp, notYet]
    · simp only [armed, if_false, select]
  | unresolved error idle fires failed =>
    rw [idle, follows.transitionsFrom_idle, select_fires rfl fires]
    simp only [take, Blueprint.arming, prepare, if_true, follows.armedPlan?, resolvePlan, follows.orderPlan?, failed]
  | armed plan idle fires resolved =>
    rw [idle, follows.transitionsFrom_idle, select_fires rfl fires]
    simp only [take, Blueprint.arming, prepare, if_true, follows.armedPlan?, resolvePlan, follows.orderPlan?, resolved,
      performAll, perform, Staged.note, List.nil_append, idle]
  | refused plan reason armed frozen fires gated =>
    rw [armed, follows.transitionsFrom_armed, select_fires rfl fires]
    simp only [take, Blueprint.placing, prepare, reduceCtorEq, if_false, performAll, perform,
      submits plan frozen armed, submitPlan, gated, armed]
  | unsubmitted plan assessment error after armed frozen fires gated submitted =>
    rw [armed, follows.transitionsFrom_armed, select_fires rfl fires]
    simp only [take, Blueprint.placing, prepare, reduceCtorEq, if_false, performAll, perform,
      submits plan frozen armed, submitPlan, gated, submitted]
  | placed plan assessment orders after armed frozen fires gated submitted =>
    rw [armed, follows.transitionsFrom_armed, select_fires rfl fires]
    simp only [take, Blueprint.placing, prepare, reduceCtorEq, if_false, performAll, perform,
      submits plan frozen armed, submitPlan, gated, submitted, Staged.note, List.nil_append, List.cons_append, armed]
  | gaveUp armed isFalse late =>
    rw [armed, follows.transitionsFrom_armed, select_passes rfl isFalse]
    simp only [select, guardHolds, Blueprint.giveUp, late, beq_self_eq_true, take, prepare, reduceCtorEq, if_false,
      performAll, perform, Staged.note, List.nil_append, armed]
  | unqueried error after placed asked =>
    rw [placed, follows.transitionsFrom_placed]
    simp only [select, guardHolds, Blueprint.manage, asked]
  | waited orders after placed asked noneLive =>
    rw [placed, follows.transitionsFrom_placed]
    simp only [select, guardHolds, Blueprint.manage, asked, noneLive]
  | managed orders after placed asked live =>
    rw [placed, follows.transitionsFrom_placed]
    simp only [select, guardHolds, Blueprint.manage, asked, live, take, prepare, reduceCtorEq, if_false, performAll,
      perform, Staged.note, List.nil_append, placed]
  | uncancelled error after managing fires asked =>
    rw [managing, follows.transitionsFrom_managing, select_fires rfl fires]
    simp only [take, Blueprint.exiting, prepare, reduceCtorEq, if_false, performAll, perform, asked]
  | exited orders between after report managing fires asked cancelled =>
    rw [managing, follows.transitionsFrom_managing, select_fires rfl fires]
    simp only [take, Blueprint.exiting, prepare, reduceCtorEq, if_false, performAll, perform, asked, cancelled,
      Staged.note, List.nil_append, List.cons_append, managing]
  | startedOver exited =>
    rw [exited, follows.transitionsFrom_exited]
    simp only [select, guardHolds, Blueprint.startOver, take, prepare, reduceCtorEq, if_false, performAll, perform,
      Staged.note, List.nil_append, exited]

end Engine

end TradingStrategy

import TradingStrategy.Proofs.Run.Rounds

/-!
What a run keeps while it stays in some stages.

Owns:
- `Engine.edges`: the six edges along which rounds move a strategy, and that no round does anything else to the stage;
- `stays_since`: a strategy in some stages has entered them along their only edge and has not left them since;
- the timers of a stay, counted in processed rounds;
- the frozen plan since the strategy armed, and its orders since they were submitted.
-/

namespace TradingStrategy.Engine

variable {σ : Type} {engine : Engine} {blueprint : Blueprint} {venue : Venue σ}

/-! ### Edges -/

/-- The edges of the table of transitions. -/
def edges : List (Stage × Stage) :=
  [(.idle, .armed), (.armed, .placed), (.armed, .idle), (.placed, .managing), (.managing, .exited), (.exited, .idle)]

/-- The stages in which a strategy has a plan. -/
def plannedStages : List Stage :=
  [.armed, .placed, .managing, .exited]

/-- The stages in which a strategy has submitted its plan. -/
def submittedStages : List Stage :=
  [.placed, .managing, .exited]

section
variable (follows : engine.strategy.Follows blueprint) (venue : Venue σ) (rounds : List (Round σ)) (round : Round σ)
include follows

/-- A round leaves the stage, or it moves the strategy along one edge. -/
theorem turnIn_edge :
    ((engine.turnIn venue rounds round).state.stage = (engine.stateAfter venue rounds).stage ∧
      (engine.turnIn venue rounds round).move? = none) ∨
    ∃ edge ∈ edges, (engine.turnIn venue rounds round).move? = some edge ∧
      (engine.stateAfter venue rounds).stage = edge.1 ∧ (engine.turnIn venue rounds round).state.stage = edge.2 := by
  cases turnIn_proceeds follows venue rounds round with
  | unseen lastTimestamp unprocessed unmoved left => exact .inl ⟨by rw [left], unmoved⟩
  | kept entries processed unmoved busy left silent => exact .inl ⟨by rw [left]; rfl, unmoved⟩
  | armed plan entries moved idle resolved left silent =>
    exact .inr ⟨(.idle, .armed), by decide, moved, idle, by rw [left]⟩
  | placed plan orders entries moved armed frozen submitted left silent =>
    exact .inr ⟨(.armed, .placed), by decide, moved, armed, by rw [left]⟩
  | managed entries moved placed left silent =>
    exact .inr ⟨(.placed, .managing), by decide, moved, placed, by rw [left]⟩
  | exited entries moved managing left silent =>
    exact .inr ⟨(.managing, .exited), by decide, moved, managing, by rw [left]⟩
  | reset entries moved resting left silent =>
    refine .inr ⟨_, ?_, moved, rfl, by rw [left]⟩
    simp only [List.mem_cons, List.not_mem_nil, or_false] at resting
    rcases resting with stage | stage
    · rw [stage]
      decide
    · rw [stage]
      decide

/-- A round that leaves the stage keeps what it has found, or the state in which its bar was looked at. -/
theorem turnIn_kept
    (same : (engine.turnIn venue rounds round).state.stage = (engine.stateAfter venue rounds).stage) :
    (∃ lastTimestamp, (engine.turnIn venue rounds round).isProcessed = false ∧
      (engine.turnIn venue rounds round).state = { engine.stateAfter venue rounds with lastTimestamp := lastTimestamp }) ∨
    ∃ entries, timerCount entries = 0 ∧ (engine.turnIn venue rounds round).isProcessed = true ∧
      (engine.turnIn venue rounds round).state =
        { engine.looked (engine.stateAfter venue rounds) round.bar with
          log := (engine.looked (engine.stateAfter venue rounds) round.bar).log ++ entries } := by
  cases turnIn_proceeds follows venue rounds round with
  | unseen lastTimestamp unprocessed unmoved left => exact .inl ⟨lastTimestamp, unprocessed, left⟩
  | kept entries processed unmoved busy left silent => exact .inr ⟨entries, silent, processed, left⟩
  | armed plan entries moved idle resolved left silent =>
    rw [left, idle] at same
    contradiction
  | placed plan orders entries moved armed frozen submitted left silent =>
    rw [left, armed] at same
    contradiction
  | managed entries moved placed left silent =>
    rw [left, placed] at same
    contradiction
  | exited entries moved managing left silent =>
    rw [left, managing] at same
    contradiction
  | reset entries moved resting left silent =>
    rw [left] at same
    rw [← same] at resting
    contradiction

/-- A processed round appends to the log with which its bar was looked at, and nothing about timers. -/
theorem turnIn_log (processed : (engine.turnIn venue rounds round).isProcessed = true) :
    ∃ entries, timerCount entries = 0 ∧ (engine.turnIn venue rounds round).state.log =
      (engine.looked (engine.stateAfter venue rounds) round.bar).log ++ entries := by
  cases turnIn_proceeds follows venue rounds round with
  | unseen lastTimestamp unprocessed unmoved left =>
    rw [unprocessed] at processed
    contradiction
  | kept entries _ unmoved busy left silent => exact ⟨entries, silent, by rw [left]⟩
  | armed plan entries moved idle resolved left silent => exact ⟨entries, silent, by rw [left]⟩
  | placed plan orders entries moved armed frozen submitted left silent => exact ⟨entries, silent, by rw [left]⟩
  | managed entries moved placed left silent => exact ⟨entries, silent, by rw [left]⟩
  | exited entries moved managing left silent => exact ⟨entries, silent, by rw [left]⟩
  | reset entries moved resting left silent => exact ⟨entries, silent, by rw [left]⟩

theorem turnIn_timers (processed : (engine.turnIn venue rounds round).isProcessed = true) :
    timerCount (engine.turnIn venue rounds round).state.log =
      timerCount (engine.looked (engine.stateAfter venue rounds) round.bar).log := by
  obtain ⟨entries, silent, log⟩ := turnIn_log follows venue rounds round processed
  rw [log, timerCount_append, silent, Nat.add_zero]

end

/-! ### Stays -/

variable {edge : Stage × Stage} {stages : List Stage} {front rounds : List (Round σ)} {entering : Round σ} {count : Nat}

theorem turnIn_target (follows : engine.strategy.Follows blueprint)
    (moved : (engine.turnIn venue front entering).move? = some edge) :
    (engine.turnIn venue front entering).state.stage = edge.2 := by
  rcases turnIn_edge follows venue front entering with ⟨_, unmoved⟩ | ⟨other, _, along, _, stage⟩
  · rw [moved] at unmoved
    contradiction
  · rw [moved] at along
    rw [stage, Option.some.inj along]

namespace Since

theorem edged (since : Since engine venue edge stages front entering rounds count) :
    (engine.turnIn venue front entering).move? = some edge := by
  induction since with
  | moved edged => exact edged
  | stays round since stays inductionHypothesis => exact inductionHypothesis

theorem inside (follows : engine.strategy.Follows blueprint) (target : edge.2 ∈ stages)
    (since : Since engine venue edge stages front entering rounds count) :
    (engine.stateAfter venue rounds).stage ∈ stages := by
  cases since with
  | moved edged =>
    rw [stateAfter_snoc, turnIn_target follows edged]
    exact target
  | stays round since stays =>
    rw [stateAfter_snoc]
    exact stays

/-- What every round of a stay keeps is as the entering round has left it. -/
theorem keeps {α : Type} (read : EngineState → α) (follows : engine.strategy.Follows blueprint)
    (target : edge.2 ∈ stages)
    (kept : ∀ rounds round, (engine.stateAfter venue rounds).stage ∈ stages →
      (engine.turnIn venue rounds round).state.stage ∈ stages →
      read (engine.turnIn venue rounds round).state = read (engine.stateAfter venue rounds))
    (since : Since engine venue edge stages front entering rounds count) :
    read (engine.stateAfter venue rounds) = read (engine.stateAfter venue (front ++ [entering])) := by
  induction since with
  | moved edged => rfl
  | stays round since stays inductionHypothesis =>
    rw [stateAfter_snoc, kept _ round (since.inside follows target) stays]
    exact inductionHypothesis

end Since

/-- A strategy that is in some stages has entered them along their only edge, and it has not left them since. -/
theorem stays_since (follows : engine.strategy.Follows blueprint) (edge : Stage × Stage)
    (outside : Stage.idle ∉ stages) (entry : ∀ step ∈ edges, step.2 ∈ stages → step.1 ∈ stages ∨ step = edge)
    (inside : (engine.stateAfter venue rounds).stage ∈ stages) :
    ∃ front entering count, Since engine venue edge stages front entering rounds count := by
  induction rounds using List.reverseRecOn with
  | nil =>
    have idle : (engine.stateAfter venue []).stage = .idle := follows.start
    rw [idle] at inside
    exact absurd inside outside
  | append_singleton rounds round inductionHypothesis =>
    rw [stateAfter_snoc] at inside
    have stayed (before : (engine.stateAfter venue rounds).stage ∈ stages) :
        ∃ front entering count, Since engine venue edge stages front entering (rounds ++ [round]) count := by
      obtain ⟨front, entering, count, since⟩ := inductionHypothesis before
      exact ⟨front, entering, _, since.stays round inside⟩
    rcases turnIn_edge follows venue rounds round with ⟨same, _⟩ | ⟨step, isEdge, moved, source, target⟩
    · apply stayed
      rw [← same]
      exact inside
    · rcases entry step isEdge (target ▸ inside) with before | same
      · apply stayed
        rw [source]
        exact before
      · rw [same] at moved
        exact ⟨rounds, round, 0, .moved moved⟩

theorem stays_since_edge (follows : engine.strategy.Follows blueprint) (edge : Stage × Stage)
    (outside : Stage.idle ∉ [edge.2]) (entry : ∀ step ∈ edges, step.2 ∈ [edge.2] → step = edge)
    (stage : (engine.stateAfter venue rounds).stage = edge.2) :
    ∃ front entering count, Since engine venue edge [edge.2] front entering rounds count := by
  apply stays_since follows edge outside
  · intro step isEdge target
    exact .inr (entry step isEdge target)
  · rw [stage]
    exact List.mem_singleton_self edge.2

/-! ### Timers -/

theorem looked_armTimer {state : EngineState} (armed : state.stage = .armed) {left : Nat}
    (running : state.armTimer = some left) (bar : Bar) : (engine.looked state bar).armTimer = some (left - 1) := by
  show state.nextArmTimer = some (left - 1)
  rw [EngineState.nextArmTimer, if_pos armed, running]
  rfl

/-- The entry timer of a placed strategy after some of the bars for which it runs. -/
def entryTimerAt (bars count : Nat) : Option Nat :=
  if count < bars then some (bars - count) else none

theorem entryTimerAt_ends (bars count : Nat) : (∃ left ∈ entryTimerAt bars count, left ≤ 1) ↔ count + 1 = bars := by
  unfold entryTimerAt
  by_cases runs : count < bars
  · rw [if_pos runs]
    constructor
    · rintro ⟨left, isLeft, small⟩
      have same : bars - count = left := Option.some.inj isLeft
      omega
    · intro last
      exact ⟨bars - count, rfl, by omega⟩
  · rw [if_neg runs]
    constructor
    · rintro ⟨left, isLeft, _⟩
      contradiction
    · omega

section
variable {state : EngineState} (placed : state.stage = .placed) {bars : Nat}
  (running : state.entryTimer = entryTimerAt bars count) (bar : Bar)
include placed running

theorem looked_entryTimer : (engine.looked state bar).entryTimer = entryTimerAt bars (count + 1) := by
  show state.nextEntryTimer = entryTimerAt bars (count + 1)
  rw [EngineState.nextEntryTimer, if_pos placed, running, entryTimerAt, entryTimerAt]
  by_cases runs : count + 1 < bars
  · have more : ¬bars - count ≤ 1 := by omega
    rw [if_pos (by omega), if_pos runs, Option.bind_some, if_neg more]
    congr 1
  · rw [if_neg runs]
    by_cases last : count < bars
    · rw [if_pos last, Option.bind_some, if_pos (by omega)]
    · rw [if_neg last, Option.bind_none]

/-- The tick of the last bar for which the entry timer runs writes that it has stopped. -/
theorem looked_timerCount : timerCount (engine.looked state bar).log =
    timerCount state.log + if count + 1 = bars then 1 else 0 := by
  show timerCount (state.log ++ state.tickEntries bar.timestamp) = _
  rw [timerCount_append, EngineState.tickEntries, running]
  congr 1
  by_cases last : count + 1 = bars
  · rw [if_pos ⟨placed, (entryTimerAt_ends bars count).mpr last⟩, if_pos last]
    rfl
  · rw [if_neg fun both => last ((entryTimerAt_ends bars count).mp both.2), if_neg last]
    rfl

end

/-- Timers run in their own stages only. -/
theorem resting_timers (follows : engine.strategy.Follows blueprint) (venue : Venue σ) (rounds : List (Round σ)) :
    ((engine.stateAfter venue rounds).stage ≠ .armed → (engine.stateAfter venue rounds).armTimer = none) ∧
      ((engine.stateAfter venue rounds).stage ≠ .placed → (engine.stateAfter venue rounds).entryTimer = none) := by
  have stopped (state : EngineState) (bar : Bar) :
      (state.armTimer = none → (engine.looked state bar).armTimer = none) ∧
        (state.entryTimer = none → (engine.looked state bar).entryTimer = none) := by
    constructor
    · intro none
      simp [looked, EngineState.nextArmTimer, none]
    · intro none
      simp [looked, EngineState.nextEntryTimer, none]
  induction rounds using List.reverseRecOn with
  | nil => exact ⟨fun _ => rfl, fun _ => rfl⟩
  | append_singleton rounds round inductionHypothesis =>
    obtain ⟨armTimer, entryTimer⟩ := inductionHypothesis
    obtain ⟨armStopped, entryStopped⟩ := stopped (engine.stateAfter venue rounds) round.bar
    rw [stateAfter_snoc]
    cases turnIn_proceeds follows venue rounds round with
    | unseen lastTimestamp unprocessed unmoved left =>
      rw [left]
      exact ⟨armTimer, entryTimer⟩
    | kept entries processed unmoved busy left silent =>
      rw [left]
      exact ⟨fun stage => armStopped (armTimer stage), fun stage => entryStopped (entryTimer stage)⟩
    | armed plan entries moved idle resolved left silent =>
      rw [left]
      exact ⟨fun notArmed => absurd rfl notArmed, fun _ => entryStopped (entryTimer (by simp [idle]))⟩
    | placed plan orders entries moved armed frozen submitted left silent =>
      rw [left]
      exact ⟨fun _ => rfl, fun notPlaced => absurd rfl notPlaced⟩
    | managed entries moved placed left silent =>
      rw [left]
      exact ⟨fun _ => armStopped (armTimer (by simp [placed])), fun _ => rfl⟩
    | exited entries moved managing left silent =>
      rw [left]
      exact ⟨fun _ => armStopped (armTimer (by simp [managing])), fun _ => entryStopped (entryTimer (by simp [managing]))⟩
    | reset entries moved resting left silent =>
      rw [left]
      exact ⟨fun _ => rfl, fun _ => rfl⟩

/-! ### Entering rounds -/

/-- The round that arms freezes the blueprint's plan as it is resolved over the history of that round. -/
theorem arming_round (follows : engine.strategy.Follows blueprint)
    (moved : (engine.turnIn venue front entering).move? = some (.idle, .armed)) :
    ∃ plan, blueprint.plan.resolve (engine.turnIn venue front entering).state.history = .ok plan ∧
      (engine.turnIn venue front entering).state.frozen = some plan ∧
      (engine.turnIn venue front entering).state.armTimer = some engine.patience := by
  cases turnIn_proceeds follows venue front entering with
  | armed plan entries along idle resolved left silent =>
    rw [left]
    exact ⟨plan, resolved, rfl, rfl⟩
  | unseen | kept | placed | managed | exited | reset => simp_all

theorem placing_round (follows : engine.strategy.Follows blueprint)
    (moved : (engine.turnIn venue front entering).move? = some (.armed, .placed)) :
    ∃ plan, (engine.turnIn venue front entering).state.frozen = some plan ∧
      (venue.submit engine.options.environment plan entering.world).1 =
        .ok (engine.turnIn venue front entering).state.orders ∧
      (engine.turnIn venue front entering).state.entryTimer = some engine.patience := by
  cases turnIn_proceeds follows venue front entering with
  | placed plan orders entries along armed frozen submitted left silent =>
    rw [left]
    exact ⟨plan, frozen, submitted, rfl⟩
  | unseen | kept | armed | managed | exited | reset => simp_all

/-! ### What a stay keeps -/

theorem armed_timer (follows : engine.strategy.Follows blueprint)
    (since : Since engine venue (.idle, .armed) [.armed] front entering rounds count) :
    (engine.stateAfter venue rounds).armTimer = some (engine.patience - count) := by
  induction since with
  | moved edged =>
    obtain ⟨plan, _, _, started⟩ := arming_round follows edged
    rw [stateAfter_snoc]
    exact started
  | @stays rounds count round since stays inductionHypothesis =>
    have armed := List.mem_singleton.mp (since.inside follows (by decide))
    have same := (List.mem_singleton.mp stays).trans armed.symm
    rw [stateAfter_snoc]
    rcases turnIn_kept follows venue rounds round same with ⟨_, unprocessed, left⟩ | ⟨_, _, processed, left⟩
    · rw [left, unprocessed]
      exact inductionHypothesis
    · rw [left, processed]
      show (engine.looked (engine.stateAfter venue rounds) round.bar).armTimer = some (engine.patience - (count + 1))
      rw [looked_armTimer armed inductionHypothesis, Nat.sub_sub]

/-- The end of the entry timer is written by the last of its rounds, once. -/
theorem placed_round (follows : engine.strategy.Follows blueprint) {round : Round σ} {written : Nat}
    (placed : (engine.stateAfter venue rounds).stage = .placed)
    (running : (engine.stateAfter venue rounds).entryTimer = entryTimerAt engine.patience count)
    (before : timerCount (engine.stateAfter venue rounds).log = written + if engine.patience ≤ count then 1 else 0)
    (processed : (engine.turnIn venue rounds round).isProcessed = true) :
    timerCount (engine.turnIn venue rounds round).state.log =
      written + if engine.patience ≤ count + 1 then 1 else 0 := by
  have once : (if engine.patience ≤ count then 1 else 0) + (if count + 1 = engine.patience then 1 else 0) =
      if engine.patience ≤ count + 1 then 1 else 0 := by
    split <;> split <;> split <;> omega
  calc timerCount (engine.turnIn venue rounds round).state.log
    _ = timerCount (engine.looked (engine.stateAfter venue rounds) round.bar).log :=
        turnIn_timers follows venue rounds round processed
    _ = timerCount (engine.stateAfter venue rounds).log + if count + 1 = engine.patience then 1 else 0 :=
        looked_timerCount placed running round.bar
    _ = written + if engine.patience ≤ count + 1 then 1 else 0 := by
        rw [before, Nat.add_assoc, once]

/-- The entry timer of a stay runs for the bars of its patience. The stay writes one entry about timers from its last
one of these bars on. -/
theorem placed_timer (follows : engine.strategy.Follows blueprint) (positive : 1 ≤ engine.patience)
    (since : Since engine venue (.armed, .placed) [.placed] front entering rounds count) :
    (engine.stateAfter venue rounds).entryTimer = entryTimerAt engine.patience count ∧
      timerCount (engine.stateAfter venue rounds).log =
        timerCount (engine.stateAfter venue (front ++ [entering])).log + if engine.patience ≤ count then 1 else 0 := by
  induction since with
  | moved edged =>
    obtain ⟨plan, _, _, started⟩ := placing_round follows edged
    rw [entryTimerAt, if_pos (by omega), if_neg (by omega), stateAfter_snoc]
    exact ⟨started, rfl⟩
  | @stays rounds count round since stays inductionHypothesis =>
    obtain ⟨running, written⟩ := inductionHypothesis
    have placed := List.mem_singleton.mp (since.inside follows (by decide))
    have same := (List.mem_singleton.mp stays).trans placed.symm
    rw [stateAfter_snoc rounds round]
    rcases turnIn_kept follows venue rounds round same with ⟨_, unprocessed, left⟩ | ⟨_, _, processed, left⟩
    · rw [left, unprocessed]
      exact ⟨running, written⟩
    · have writes := placed_round follows placed running written processed
      have runs : (engine.looked (engine.stateAfter venue rounds) round.bar).entryTimer =
          entryTimerAt engine.patience (count + 1) := looked_entryTimer placed running round.bar
      rw [left] at writes ⊢
      rw [processed]
      exact ⟨runs, writes⟩

/-- The last round of a stay ticks as the others do, whatever it leads to. -/
theorem placed_timer_next (follows : engine.strategy.Follows blueprint) (positive : 1 ≤ engine.patience)
    (since : Since engine venue (.armed, .placed) [.placed] front entering rounds count) (round : Round σ)
    (processed : (engine.turnIn venue rounds round).isProcessed = true) :
    timerCount (engine.stateAfter venue (rounds ++ [round])).log =
      timerCount (engine.stateAfter venue (front ++ [entering])).log +
        if engine.patience ≤ count + 1 then 1 else 0 := by
  obtain ⟨running, written⟩ := placed_timer follows positive since
  have placed := List.mem_singleton.mp (since.inside follows (by decide))
  rw [stateAfter_snoc]
  exact placed_round follows placed running written processed

/-- The frozen plan is the blueprint's plan as it was resolved when the strategy armed. -/
theorem frozen_since (follows : engine.strategy.Follows blueprint)
    (planned : (engine.stateAfter venue rounds).stage ≠ .idle) :
    ∃ front arming count plan, Since engine venue (.idle, .armed) plannedStages front arming rounds count ∧
      blueprint.plan.resolve (engine.stateAfter venue (front ++ [arming])).history = .ok plan ∧
      (engine.stateAfter venue rounds).frozen = some plan := by
  have inside : (engine.stateAfter venue rounds).stage ∈ plannedStages := by
    cases stage : (engine.stateAfter venue rounds).stage with
    | idle => exact absurd stage planned
    | armed | placed | managing | exited => decide
  obtain ⟨front, arming, count, since⟩ := stays_since follows (.idle, .armed) (by decide) (by decide) inside
  have same := since.keeps EngineState.frozen follows (by decide) (by
    intro rounds round before after
    cases turnIn_proceeds follows venue rounds round with
    | unseen | kept | placed | managed | exited => simp_all [looked]
    | armed plan entries moved idle resolved left silent =>
      rw [idle] at before
      contradiction
    | reset entries moved resting left silent =>
      rw [left] at after
      contradiction)
  obtain ⟨plan, resolved, frozen, _⟩ := arming_round follows since.edged
  rw [← stateAfter_snoc] at resolved frozen
  exact ⟨front, arming, count, plan, since, resolved, same.trans frozen⟩

/-- The orders are those that the venue has answered with when the frozen plan was submitted. -/
theorem orders_since (follows : engine.strategy.Follows blueprint)
    (submitted : (engine.stateAfter venue rounds).stage ∈ submittedStages) :
    ∃ front placing count plan, Since engine venue (.armed, .placed) submittedStages front placing rounds count ∧
      (engine.stateAfter venue rounds).frozen = some plan ∧
      (venue.submit engine.options.environment plan placing.world).1 =
        .ok (engine.stateAfter venue rounds).orders := by
  obtain ⟨front, placing, count, since⟩ := stays_since follows (.armed, .placed) (by decide) (by decide) submitted
  have same := since.keeps (fun state => (state.frozen, state.orders)) follows (by decide) (by
    intro rounds round before after
    cases turnIn_proceeds follows venue rounds round with
    | unseen | kept | managed | exited => simp_all [looked]
    | armed plan entries moved idle resolved left silent =>
      rw [left] at after
      contradiction
    | placed plan orders entries moved armed frozen submitted left silent =>
      rw [armed] at before
      contradiction
    | reset entries moved resting left silent =>
      rw [left] at after
      contradiction)
  obtain ⟨plan, frozen, answered, _⟩ := placing_round follows since.edged
  rw [← stateAfter_snoc] at frozen answered
  obtain ⟨sameFrozen, sameOrders⟩ := Prod.mk.inj same
  exact ⟨front, placing, count, plan, since, sameFrozen.trans frozen, sameOrders ▸ answered⟩

end TradingStrategy.Engine

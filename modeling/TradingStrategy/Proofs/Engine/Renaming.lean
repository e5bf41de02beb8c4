import TradingStrategy.Proofs.Engine.Stages

/-!
States under other names of their orders.

Owns:
- a state whose orders, and whose log, call the orders by other names;
- that recording, counting down, observing and committing do not look at names;
- the names that a state knows, which are all that a renaming depends on;
- the choice of names for ids that are new.

Errors keep their names. They do not occur where states are renamed.
-/

namespace TradingStrategy

/-! ### Other names -/

def Order.renamed (rename : String → String) (order : Order) : Order :=
  { order with id := rename order.id }

def CancelReport.renamed (rename : String → String) (report : CancelReport) : CancelReport :=
  ⟨report.cancelled.map rename, report.failed.map fun failure => { failure with id := rename failure.id }⟩

def LogEvent.renamed (rename : String → String) : LogEvent → LogEvent
  | submitted ids => submitted (ids.map rename)
  | entriesCancelled report => entriesCancelled (report.renamed rename)
  | event => event

def LogEntry.renamed (rename : String → String) (entry : LogEntry) : LogEntry :=
  { entry with event := entry.event.renamed rename }

def Staged.renamed (rename : String → String) (staged : Staged) : Staged :=
  { staged with
    orders := staged.orders.map (Order.renamed rename)
    events := staged.events.map (LogEvent.renamed rename) }

/-- The same state with other names for its orders, also in its log. -/
def EngineState.renamed (rename : String → String) (state : EngineState) : EngineState :=
  { state with
    orders := state.orders.map (Order.renamed rename)
    log := state.log.map (LogEntry.renamed rename) }

/-! ### The names of a state -/

def LogEvent.ids : LogEvent → List String
  | submitted ids => ids
  | entriesCancelled report => report.cancelled ++ report.failed.map CancelFailure.id
  | _ => []

def Staged.ids (staged : Staged) : List String :=
  staged.orders.map Order.id ++ staged.events.flatMap LogEvent.ids

/-- A placement mentions its orders. -/
theorem Staged.mem_placing_ids {timeout : Nat} {orders : List Order} {worst limit ratio : Float}
    {text id : String}
    (mentioned : id ∈ (⟨none, some timeout, orders,
      [.riskAccepted worst limit ratio, .submitted (orders.map Order.id), .action text]⟩ : Staged).ids) :
    id ∈ orders.map Order.id := by
  simpa only [ids, LogEvent.ids, List.flatMap_cons, List.flatMap_nil, List.nil_append, List.append_nil, List.mem_append,
    or_self] using mentioned

/-- An exit mentions what it cancels. -/
theorem Staged.exiting_ids (report : CancelReport) (text : String) :
    (⟨none, none, [], [.entriesCancelled report, .action text]⟩ : Staged).ids =
      report.cancelled ++ report.failed.map CancelFailure.id := by
  simp only [ids, LogEvent.ids, List.flatMap_cons, List.flatMap_nil, List.map_nil, List.nil_append, List.append_nil]

/-- The names of orders that a state or its log mentions. -/
def EngineState.ids (state : EngineState) : List String :=
  state.orders.map Order.id ++ state.log.flatMap fun entry => entry.event.ids

variable {rename other : String → String}

/-- Distinct ids can be given any names, and all others keep theirs. -/
theorem exists_renaming (rename : String → String) {ids names : List String} (distinct : ids.Nodup)
    (sameLength : ids.length = names.length) :
    ∃ extended : String → String, (∀ id, id ∉ ids → extended id = rename id) ∧ ids.map extended = names := by
  induction ids generalizing names with
  | nil => exact ⟨rename, fun _ _ => rfl, (List.length_eq_zero_iff.mp sameLength.symm).symm⟩
  | cons first rest inductionHypothesis =>
    obtain ⟨fresh, distinct⟩ := List.nodup_cons.mp distinct
    match names with
    | name :: others =>
      obtain ⟨extended, elsewhere, given⟩ := inductionHypothesis distinct (Nat.succ.inj sameLength)
      refine ⟨fun id => if id = first then name else extended id, ?_, ?_⟩
      · intro id outside
        obtain ⟨notFirst, notRest⟩ := not_or.mp (mt List.mem_cons.mpr outside)
        dsimp only
        rw [if_neg notFirst, elsewhere id notRest]
      · have untouched : rest.map (fun id => if id = first then name else extended id) = rest.map extended :=
          List.map_congr_left fun id member => if_neg (by rintro rfl; exact fresh member)
        rw [List.map_cons, untouched, given, if_pos rfl]

theorem Order.renamed_ids (rename : String → String) (orders : List Order) :
    (orders.map (Order.renamed rename)).map Order.id = (orders.map Order.id).map rename := by
  rw [List.map_map, List.map_map]
  rfl

theorem LogEvent.renamed_congr {event : LogEvent} (agree : ∀ id ∈ event.ids, rename id = other id) :
    event.renamed rename = event.renamed other := by
  cases event with
  | submitted ids => exact congrArg submitted (List.map_congr_left agree)
  | entriesCancelled report =>
    have cancelled := List.map_congr_left fun id member => agree id (List.mem_append_left _ member)
    have failed : report.failed.map (fun failure => { failure with id := rename failure.id }) =
        report.failed.map (fun failure => { failure with id := other failure.id }) := by
      apply List.map_congr_left
      intro failure member
      rw [agree failure.id (List.mem_append_right _ (List.mem_map_of_mem member))]
    simp only [renamed, CancelReport.renamed, cancelled, failed]
  | transition | action | riskAccepted | refused | entryTimeout | failed => rfl

namespace EngineState

variable {state : EngineState}

theorem renamed_congr (agree : ∀ id ∈ state.ids, rename id = other id) :
    state.renamed rename = state.renamed other := by
  have orders : state.orders.map (Order.renamed rename) = state.orders.map (Order.renamed other) := by
    apply List.map_congr_left
    intro order member
    simp only [Order.renamed, agree order.id (List.mem_append_left _ (List.mem_map_of_mem member))]
  have log : state.log.map (LogEntry.renamed rename) = state.log.map (LogEntry.renamed other) := by
    apply List.map_congr_left
    intro entry member
    have event : entry.event.renamed rename = entry.event.renamed other :=
      LogEvent.renamed_congr fun id named =>
        agree id (List.mem_append_right _ (List.mem_flatMap.mpr ⟨entry, member, named⟩))
    simp only [LogEntry.renamed, event]
  simp only [renamed, orders, log]

/-! ### Operations do not look at names -/

theorem renamed_record (state : EngineState) (timestamp : Calendar.Instant) (event : LogEvent) :
    (state.record timestamp event).renamed rename = (state.renamed rename).record timestamp (event.renamed rename) := by
  simp only [record, renamed, List.map_append, List.map_cons, List.map_nil, LogEntry.renamed]

theorem renamed_tick (state : EngineState) (timestamp : Calendar.Instant) :
    (state.tick timestamp).renamed rename = (state.renamed rename).tick timestamp := by
  have sameStage : (state.renamed rename).stage = state.stage := rfl
  have sameArmTimer : (state.renamed rename).armTimer = state.armTimer := rfl
  have sameEntryTimer : (state.renamed rename).entryTimer = state.entryTimer := rfl
  simp only [tick, sameStage, sameArmTimer, sameEntryTimer]
  split
  · rfl
  · split
    · rw [renamed_record]
      rfl
    · rfl
  · rfl

theorem renamed_enter (state : EngineState) (stage : Stage) (timeout : Nat) (staged : Staged) :
    (state.enter stage timeout staged).renamed rename =
      (state.renamed rename).enter stage timeout (staged.renamed rename) := by
  cases stage <;> rfl

theorem renamed_commit (state : EngineState) (transition : Transition) (timeout : Nat) (staged : Staged)
    (timestamp : Calendar.Instant) :
    (state.commit transition timeout staged timestamp).renamed rename =
      (state.renamed rename).commit transition timeout (staged.renamed rename) timestamp := by
  simp only [commit_eq, ← renamed_enter]
  simp only [renamed, Staged.renamed, List.map_append, List.map_cons, List.map_map]
  rfl

theorem Holds.renamed {blueprint : Blueprint} (holds : state.Holds blueprint) (rename : String → String) :
    (state.renamed rename).Holds blueprint where
  capacity := holds.capacity
  bound := holds.bound
  idle := holds.idle
  unsubmitted resting := by
    rw [EngineState.renamed, holds.unsubmitted resting]
    rfl
  frozen := holds.frozen

/-! ### Names that come in -/

theorem ids_record (state : EngineState) (timestamp : Calendar.Instant) (event : LogEvent) :
    (state.record timestamp event).ids = state.ids ++ event.ids := by
  simp only [ids, record, List.flatMap_append, List.flatMap_cons, List.flatMap_nil, List.append_nil, List.append_assoc]

theorem ids_tick (state : EngineState) (timestamp : Calendar.Instant) : (state.tick timestamp).ids = state.ids := by
  unfold tick
  split
  · rfl
  · split
    · rw [ids_record]
      exact List.append_nil _
    · rfl
  · rfl

theorem commit_orders (state : EngineState) (transition : Transition) (timeout : Nat) (staged : Staged)
    (timestamp : Calendar.Instant) :
    (state.commit transition timeout staged timestamp).orders = staged.orders ∨
      (state.commit transition timeout staged timestamp).orders = state.orders ++ staged.orders := by
  rw [commit_eq]
  cases transition.target with
  | idle => exact .inl (List.nil_append _)
  | armed | placed | managing | exited => exact .inr rfl

theorem commit_log (state : EngineState) (transition : Transition) (timeout : Nat) (staged : Staged)
    (timestamp : Calendar.Instant) :
    ((state.commit transition timeout staged timestamp).log.flatMap fun entry => entry.event.ids) =
      (state.log.flatMap fun entry => entry.event.ids) ++ staged.events.flatMap LogEvent.ids := by
  have sameLog : (state.enter transition.target timeout staged).log = state.log := by
    cases transition.target <;> rfl
  rw [commit_eq]
  simp only [sameLog, List.flatMap_append, List.map_cons, List.flatMap_cons, List.flatMap_map]
  rfl

/-- A commitment brings in what was prepared for it, and no other names. -/
theorem mem_ids_commit {transition : Transition} {timeout : Nat} {staged : Staged} {timestamp : Calendar.Instant}
    {id : String} (member : id ∈ (state.commit transition timeout staged timestamp).ids) :
    id ∈ state.ids ∨ id ∈ staged.ids := by
  rw [ids, commit_log] at member
  rcases List.mem_append.mp member with ofOrders | ofLog
  · rcases state.commit_orders transition timeout staged timestamp with dropped | kept
    · rw [dropped] at ofOrders
      exact .inr (List.mem_append_left _ ofOrders)
    · rw [kept, List.map_append] at ofOrders
      exact (List.mem_append.mp ofOrders).imp (List.mem_append_left _) (List.mem_append_left _)
  · exact (List.mem_append.mp ofLog).imp (List.mem_append_right _) (List.mem_append_right _)

end EngineState

namespace Engine

/-- The same engine in another environment. -/
def under (engine : Engine) (environment : Environment) : Engine :=
  { engine with options := { engine.options with environment := environment } }

variable {engine : Engine} {state : EngineState}

theorem renamed_observed (engine : Engine) (environment : Environment) (state : EngineState) (bar : Bar) :
    (engine.observed state bar).renamed rename = (engine.under environment).observed (state.renamed rename) bar :=
  EngineState.renamed_tick _ bar.timestamp

theorem logError_renamed {σ τ : Type} (timestamp : Calendar.Instant) (turn : Turn σ) (other : World τ) :
    logError timestamp ⟨turn.result, turn.state.renamed rename, other⟩ =
      ⟨(logError timestamp turn).result, (logError timestamp turn).state.renamed rename, other⟩ := by
  obtain ⟨result, state, world⟩ := turn
  cases result with
  | ok outcome => rfl
  | error error =>
    simp only [logError, EngineState.renamed_record]
    rfl

theorem ids_observed (engine : Engine) (state : EngineState) (bar : Bar) :
    (engine.observed state bar).ids = state.ids :=
  EngineState.ids_tick _ bar.timestamp

end Engine

end TradingStrategy

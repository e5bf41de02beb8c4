import TradingStrategy.Expr.Eval

/-!
Disjunctions of conditions.

Owns:
- `EvalContext.Denies` and `Decides`: the first condition of a list that is not false;
- `evaluate_or_denied` and `evaluate_or_settled`: which operand the value of a disjunction of two comes from;
- `evaluateBool_anyOf_decided`: the disjunction of a list has the truth, or fails with the error, that its deciding
  condition has;
- `anyOf_is_sequential_test`: the disjunction of a list is the test of its conditions one after another.

A disjunction groups to the left, so the conditions in front of the deciding one are inside its left operand, and those
behind it are right operands that are not reached. A single condition stands without an operator, so it is the guard
that refuses a number there.
-/

namespace TradingStrategy

/-! ### Deciding conditions -/

/-- A condition is false. -/
def EvalContext.Denies (context : EvalContext) (e : Expr) : Prop :=
  evaluate context e = .ok (.boolean false)

/-- A list of conditions with the first one that is not false, those before it and those behind it. -/
structure Decides (context : EvalContext) (list before : List Expr) (deciding : Expr) (behind : List Expr) : Prop where
  split : list = before ++ deciding :: behind
  denied : ∀ e ∈ before, context.Denies e
  decides : ¬context.Denies deciding

/-- All conditions of a list are false, or there is a first one that is not. -/
theorem denies_or_decides (context : EvalContext) (list : List Expr) :
    (∀ e ∈ list, context.Denies e) ∨ ∃ before deciding behind, Decides context list before deciding behind := by
  induction list with
  | nil => exact .inl fun e member => absurd member List.not_mem_nil
  | cons first rest inductionHypothesis =>
    by_cases deniesFirst : context.Denies first
    · rcases inductionHypothesis with denied | ⟨before, deciding, behind, decides⟩
      · exact .inl (List.forall_mem_cons.mpr ⟨deniesFirst, denied⟩)
      · refine .inr ⟨first :: before, deciding, behind, ?_, ?_, decides.decides⟩
        · rw [decides.split, List.cons_append]
        · exact List.forall_mem_cons.mpr ⟨deniesFirst, decides.denied⟩
    · exact .inr ⟨[], first, rest, rfl, fun e member => absurd member List.not_mem_nil, deniesFirst⟩

variable {context : EvalContext} {list before behind : List Expr} {deciding left right : Expr}

/-! ### Two operands -/

/-- The value of an operand of a disjunction: a truth stays as it is, and a number is refused. -/
def truthOf (outcome : Except EvalError Value) : Except EvalError Value := do
  return .boolean (← (← outcome).asBoolean BinaryOp.or.symbol)

theorem truthOf_truthOf (outcome : Except EvalError Value) : truthOf (truthOf outcome) = truthOf outcome := by
  cases outcome with
  | error error => rfl
  | ok value => cases value <;> rfl

theorem truthOf_eq_false {outcome : Except EvalError Value} :
    truthOf outcome = .ok (.boolean false) ↔ outcome = .ok (.boolean false) := by
  cases outcome with
  | error error => exact ⟨nofun, nofun⟩
  | ok value =>
    cases value with
    | number n => exact ⟨nofun, nofun⟩
    | boolean truth => rfl

theorem evaluate_or_denied (denied : context.Denies left) :
    evaluate context (.binary .or left right) = truthOf (evaluate context right) := by
  have isFalse : evaluate context left = .ok (.boolean false) := denied
  rw [evaluate, isFalse]
  cases evaluate context right with
  | error error => rfl
  | ok value => cases value <;> rfl

theorem evaluate_or_settled (settled : ¬context.Denies left) :
    evaluate context (.binary .or left right) = truthOf (evaluate context left) := by
  rw [evaluate]
  cases isValue : evaluate context left with
  | error error => rfl
  | ok value =>
    cases value with
    | number n => rfl
    | boolean truth =>
      cases truth with
      | true => rfl
      | false => exact absurd isValue settled

/-! ### Lists of conditions -/

theorem denies_foldl (deniesFirst : context.Denies left) (denied : ∀ e ∈ list, context.Denies e) :
    context.Denies (list.foldl (.binary .or) left) := by
  induction list generalizing left with
  | nil => exact deniesFirst
  | cons second rest inductionHypothesis =>
    obtain ⟨deniesSecond, deniesRest⟩ := List.forall_mem_cons.mp denied
    refine inductionHypothesis ?_ deniesRest
    rw [EvalContext.Denies, evaluate_or_denied deniesFirst, deniesSecond]
    rfl

/-- Behind an operand with a truth or an error that is not false, nothing changes the value. -/
theorem evaluate_foldl_settled (settled : ¬context.Denies left)
    (hasTruth : truthOf (evaluate context left) = evaluate context left) (list : List Expr) :
    evaluate context (list.foldl (.binary .or) left) = evaluate context left := by
  induction list generalizing left with
  | nil => rfl
  | cons second rest inductionHypothesis =>
    have same : evaluate context (.binary .or left second) = evaluate context left :=
      (evaluate_or_settled settled).trans hasTruth
    rw [List.foldl_cons, inductionHypothesis (by rwa [EvalContext.Denies, same]) (by rwa [same]), same]

/-- The truth or the error of a deciding condition. A number is refused by the guard where the condition is alone, and
by the operator where it is not. -/
def decidedBy (context : EvalContext) (alone : Bool) (deciding : Expr) : Except EvalError Bool :=
  match evaluate context deciding with
  | .ok (.boolean truth) => .ok truth
  | .ok (.number n) =>
      .error (if alone then .notBoolean deciding (.number n) else .typeMismatch BinaryOp.or.symbol "boolean" "number")
  | .error error => .error error

theorem evaluateBool_eq_decidedBy (deciding : Expr) :
    evaluateBool context deciding = decidedBy context true deciding := by
  unfold evaluateBool decidedBy
  cases evaluate context deciding with
  | error error => rfl
  | ok value => cases value <;> rfl

theorem evaluateBool_of_truthOf {e : Expr} (same : evaluate context e = truthOf (evaluate context deciding)) :
    evaluateBool context e = decidedBy context false deciding := by
  unfold evaluateBool decidedBy
  rw [same]
  cases evaluate context deciding with
  | error error => rfl
  | ok value => cases value <;> rfl

/-- An operand with the truth of a deciding condition carries the whole disjunction. -/
theorem evaluateBool_foldl_decided {e : Expr} (decides : ¬context.Denies deciding)
    (same : evaluate context e = truthOf (evaluate context deciding)) :
    evaluateBool context (behind.foldl (.binary .or) e) = decidedBy context false deciding := by
  have settled : ¬context.Denies e := by
    rwa [EvalContext.Denies, same, truthOf_eq_false]
  have hasTruth : truthOf (evaluate context e) = evaluate context e := by
    rw [same, truthOf_truthOf]
  exact evaluateBool_of_truthOf ((evaluate_foldl_settled settled hasTruth behind).trans same)

/-- The disjunction of a list comes to what its deciding condition comes to. -/
theorem evaluateBool_anyOf_decided (decides : Decides context list before deciding behind) :
    evaluateBool context (Expr.anyOf list) = decidedBy context (before.isEmpty && behind.isEmpty) deciding := by
  obtain ⟨rfl, denied, settled⟩ := decides
  cases before with
  | nil =>
    cases behind with
    | nil => exact evaluateBool_eq_decidedBy deciding
    | cons second rest =>
      rw [List.nil_append, Expr.anyOf, List.foldl_cons]
      exact evaluateBool_foldl_decided settled (evaluate_or_settled settled)
  | cons first others =>
    obtain ⟨deniesFirst, deniesOthers⟩ := List.forall_mem_cons.mp denied
    have deniesAll := denies_foldl deniesFirst deniesOthers
    rw [List.cons_append, Expr.anyOf, List.foldl_append, List.foldl_cons]
    exact evaluateBool_foldl_decided settled (evaluate_or_denied deniesAll)

theorem evaluateBool_anyOf_denied (denied : ∀ e ∈ list, context.Denies e) :
    evaluateBool context (Expr.anyOf list) = .ok false := by
  have isFalse : context.Denies (Expr.anyOf list) := by
    cases list with
    | nil => rfl
    | cons first rest =>
      obtain ⟨deniesFirst, deniesRest⟩ := List.forall_mem_cons.mp denied
      exact denies_foldl deniesFirst deniesRest
  rw [evaluateBool, isFalse]

/-- A condition that has no truth: it fails, or it is a number. -/
def EvalContext.Rejects (context : EvalContext) (e : Expr) : Prop :=
  (∃ error, evaluate context e = .error error) ∨ ∃ n, evaluate context e = .ok (.number n)

/-- A deciding condition is true and so is the disjunction, or it has no truth and the disjunction fails. -/
theorem Decides.outcome (decides : Decides context list before deciding behind) :
    evaluate context deciding = .ok (.boolean true) ∧ evaluateBool context (Expr.anyOf list) = .ok true ∨
      context.Rejects deciding ∧ ∃ error, evaluateBool context (Expr.anyOf list) = .error error := by
  rw [evaluateBool_anyOf_decided decides, decidedBy]
  cases isValue : evaluate context deciding with
  | error error => exact .inr ⟨.inl ⟨error, isValue⟩, error, rfl⟩
  | ok value =>
    cases value with
    | number n => exact .inr ⟨.inr ⟨n, isValue⟩, _, rfl⟩
    | boolean truth =>
      cases truth with
      | true => exact .inl ⟨rfl, rfl⟩
      | false => exact absurd isValue decides.decides

theorem EvalContext.Rejects.not_true (rejects : context.Rejects deciding) :
    evaluate context deciding ≠ .ok (.boolean true) := by
  intro isTrue
  rcases rejects with ⟨error, failed⟩ | ⟨n, isNumber⟩
  · exact nomatch isTrue.symm.trans failed
  · exact nomatch isTrue.symm.trans isNumber

theorem evaluateBool_anyOf_true_iff : evaluateBool context (Expr.anyOf list) = .ok true ↔
    ∃ before deciding behind, Decides context list before deciding behind ∧
      evaluate context deciding = .ok (.boolean true) := by
  constructor
  · intro whole
    rcases denies_or_decides context list with denied | ⟨before, deciding, behind, decides⟩
    · exact nomatch whole.symm.trans (evaluateBool_anyOf_denied denied)
    · rcases decides.outcome with ⟨isTrue, _⟩ | ⟨_, error, failed⟩
      · exact ⟨before, deciding, behind, decides, isTrue⟩
      · exact nomatch whole.symm.trans failed
  · rintro ⟨before, deciding, behind, decides, isTrue⟩
    rcases decides.outcome with ⟨_, whole⟩ | ⟨rejects, _⟩
    · exact whole
    · exact absurd isTrue rejects.not_true

theorem evaluateBool_anyOf_false_iff :
    evaluateBool context (Expr.anyOf list) = .ok false ↔ ∀ e ∈ list, context.Denies e := by
  refine ⟨fun whole => ?_, evaluateBool_anyOf_denied⟩
  rcases denies_or_decides context list with denied | ⟨before, deciding, behind, decides⟩
  · exact denied
  · rcases decides.outcome with ⟨_, isTrue⟩ | ⟨_, error, failed⟩
    · exact nomatch whole.symm.trans isTrue
    · exact nomatch whole.symm.trans failed

theorem evaluateBool_anyOf_error_iff : (∃ error, evaluateBool context (Expr.anyOf list) = .error error) ↔
    ∃ before deciding behind, Decides context list before deciding behind ∧ context.Rejects deciding := by
  constructor
  · rintro ⟨error, whole⟩
    rcases denies_or_decides context list with denied | ⟨before, deciding, behind, decides⟩
    · exact nomatch whole.symm.trans (evaluateBool_anyOf_denied denied)
    · rcases decides.outcome with ⟨_, isTrue⟩ | ⟨rejects, _⟩
      · exact nomatch whole.symm.trans isTrue
      · exact ⟨before, deciding, behind, decides, rejects⟩
  · rintro ⟨before, deciding, behind, decides, rejects⟩
    rcases decides.outcome with ⟨isTrue, _⟩ | ⟨_, failed⟩
    · exact absurd isTrue rejects.not_true
    · exact failed

/-- Nothing behind a deciding condition is consulted, but for whether there is anything. -/
theorem Decides.unconsulted (decides : Decides context list before deciding behind) {other : EvalContext}
    (same : ∀ e ∈ before ++ [deciding], evaluate other e = evaluate context e) {others : List Expr}
    (sameEnd : others.isEmpty = behind.isEmpty) :
    evaluateBool other (Expr.anyOf (before ++ deciding :: others)) = evaluateBool context (Expr.anyOf list) := by
  have sameDeciding : evaluate other deciding = evaluate context deciding :=
    same deciding (List.mem_append_right _ (List.mem_singleton_self deciding))
  have decidesThere : Decides other (before ++ deciding :: others) before deciding others := by
    refine ⟨rfl, fun e member => ?_, ?_⟩
    · exact (same e (List.mem_append_left _ member)).trans (decides.denied e member)
    · rw [EvalContext.Denies, sameDeciding]
      exact decides.decides
  rw [evaluateBool_anyOf_decided decidesThere, evaluateBool_anyOf_decided decides, sameEnd, decidedBy, decidedBy,
    sameDeciding]

/-! ### The sequential test -/

/-- The disjunction of a list tests its conditions one after another. It is true if the first condition that is not
false is true, false if there is none, and fails if that condition fails or is no truth. Nothing behind that condition
is consulted: in any other context in which the conditions up to it have the same values, and with any other conditions
behind it, the outcome is the same. -/
theorem anyOf_is_sequential_test (context : EvalContext) (list : List Expr) :
    (evaluateBool context (.anyOf list) = .ok true ↔ ∃ before deciding behind,
      Decides context list before deciding behind ∧ evaluate context deciding = .ok (.boolean true)) ∧
    (evaluateBool context (.anyOf list) = .ok false ↔ ∀ e ∈ list, evaluate context e = .ok (.boolean false)) ∧
    ((∃ error, evaluateBool context (.anyOf list) = .error error) ↔ ∃ before deciding behind,
      Decides context list before deciding behind ∧ context.Rejects deciding) ∧
    ∀ before deciding behind, Decides context list before deciding behind →
      evaluateBool context (.anyOf list) = decidedBy context (before.isEmpty && behind.isEmpty) deciding ∧
        ∀ (other : EvalContext) (others : List Expr),
          (∀ e ∈ before ++ [deciding], evaluate other e = evaluate context e) → others.isEmpty = behind.isEmpty →
            evaluateBool other (.anyOf (before ++ deciding :: others)) = evaluateBool context (.anyOf list) := by
  refine ⟨evaluateBool_anyOf_true_iff, evaluateBool_anyOf_false_iff, evaluateBool_anyOf_error_iff, ?_⟩
  intro before deciding behind decides
  exact ⟨evaluateBool_anyOf_decided decides, fun _ _ same sameEnd => decides.unconsulted same sameEnd⟩

/-- The bar on which an armed plan is looked at. -/
def breachContext : EvalContext :=
  { history := ⟨maxHistory, [⟨⟨60, 0⟩, [("close", 102.0), ("high", 106.0)]⟩]⟩, bindings := [("stop", 95.0)] }

/-- The close is below the stop. -/
def belowStop : Expr :=
  .binary .lt (.identifier "close") (.identifier "stop")

/-- The high is above a fixed price. -/
def aboveCeiling : Expr :=
  .binary .gt (.identifier "high") (.number 105.0)

/-- The second condition is true, so the third one, which names nothing that is there, is not reached. -/
theorem breach_is_tested_in_order :
    Decides breachContext [belowStop, aboveCeiling, .identifier "rsi_14"] [belowStop] aboveCeiling
        [.identifier "rsi_14"] ∧
      evaluate breachContext (.identifier "rsi_14") = .error (.unknownIdentifier "rsi_14") ∧
      evaluateBool breachContext (.anyOf [belowStop, aboveCeiling, .identifier "rsi_14"]) = .ok true ∧
      evaluateBool breachContext (.anyOf [belowStop, aboveCeiling, .identifier "high"]) = .ok true := by
  have below : evaluate breachContext belowStop = .ok (.boolean false) := rfl
  have above : evaluate breachContext aboveCeiling = .ok (.boolean true) := rfl
  have decides : Decides breachContext [belowStop, aboveCeiling, .identifier "rsi_14"] [belowStop] aboveCeiling
      [.identifier "rsi_14"] := by
    refine ⟨rfl, fun e member => ?_, fun denied => ?_⟩
    · rw [List.mem_singleton.mp member]
      exact below
    · exact nomatch above.symm.trans denied
  obtain ⟨isTrue, _, _, consults⟩ :=
    anyOf_is_sequential_test breachContext [belowStop, aboveCeiling, .identifier "rsi_14"]
  have whole := isTrue.mpr ⟨_, _, _, decides, above⟩
  have replaced := (consults _ _ _ decides).2 breachContext [.identifier "high"] (fun _ _ => rfl) rfl
  exact ⟨decides, rfl, whole, replaced.trans whole⟩

end TradingStrategy

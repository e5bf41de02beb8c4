import TradingStrategy.Expr.Eval

/-!
What the value of an expression depends on.

Owns:
- `Expr.MayRead`: the names and offsets that an expression can look up;
- `evaluate_congr`: in two contexts that agree on these lookups, an expression has the same value or fails with the same
  error.

Only an index that is a number literal bounds the offset of its lookup. The offset of any other index is computed when
the expression is evaluated, and can be every one.
-/

namespace TradingStrategy

/-- An expression can look up a name so many bars back. -/
inductive Expr.MayRead (name : String) (offset : Nat) : Expr → Prop where
  | identifier : offset = 0 → MayRead name offset (.identifier name)
  | lookback {index : Expr} : (∀ n, index = .literal (.number n) → offset = Number.toNatClamped n) →
      MayRead name offset (.lookback (.identifier name) index)
  | index {object index : Expr} : MayRead name offset index → MayRead name offset (.lookback object index)
  | arg {op : UnaryOp} {arg : Expr} : MayRead name offset arg → MayRead name offset (.unary op arg)
  | left {op : BinaryOp} {left right : Expr} : MayRead name offset left → MayRead name offset (.binary op left right)
  | right {op : BinaryOp} {left right : Expr} : MayRead name offset right → MayRead name offset (.binary op left right)
  | args {function : String} {args : List Expr} {e : Expr} : e ∈ args → MayRead name offset e →
      MayRead name offset (.call function args)

/-- Two contexts agree on all that an expression can look up. -/
def EvalContext.AgreesOn (a b : EvalContext) (e : Expr) : Prop :=
  ∀ name offset, e.MayRead name offset → a.lookup name offset = b.lookup name offset

/-- An index that is a number literal stands for that number, if it is an offset. -/
theorem offsetOf_literal {access : Expr} {n : Float} {offset : Nat} (isOffset : offsetOf access (.number n) = .ok offset) :
    offset = Number.toNatClamped n := by
  unfold offsetOf at isOffset
  dsimp only at isOffset
  split at isOffset
  · exact (Except.ok.inj isOffset).symm
  · contradiction

mutual

theorem evaluate_congr {a b : EvalContext} (e : Expr) (agrees : a.AgreesOn b e) : evaluate a e = evaluate b e := by
  cases e with
  | literal value => rw [evaluate, evaluate]
  | identifier name => rw [evaluate, evaluate, agrees name 0 (.identifier rfl)]
  | unary op arg =>
    have sameArg := evaluate_congr arg fun name offset read => agrees name offset (.arg read)
    rw [evaluate, evaluate, sameArg]
  | call name args =>
    have sameArgs := evaluateAll_congr args fun e member name offset read => agrees name offset (.args member read)
    rw [evaluate, evaluate, sameArgs]
  | lookback object index =>
    have sameIndex := evaluate_congr index fun name offset read => agrees name offset (.index read)
    cases object with
    | identifier name =>
      rw [evaluate, evaluate, sameIndex]
      cases isValue : evaluate b index with
      | error error => rfl
      | ok value =>
        cases isOffset : offsetOf (.lookback (.identifier name) index) value with
        | error error => simp [isOffset, bind, Except.bind]
        | ok offset =>
          have mayRead : (Expr.lookback (.identifier name) index).MayRead name offset := by
            refine .lookback fun n isLiteral => ?_
            rw [isLiteral, evaluate] at isValue
            rw [← Except.ok.inj isValue] at isOffset
            exact offsetOf_literal isOffset
          simp [isOffset, bind, Except.bind, agrees name offset mayRead]
    | _ => rw [evaluate, evaluate] <;> simp
  | binary op left right =>
    have sameLeft := evaluate_congr left fun name offset read => agrees name offset (.left read)
    have sameRight := evaluate_congr right fun name offset read => agrees name offset (.right read)
    cases op with
    | and | or | eq | ne => rw [evaluate, evaluate, sameLeft, sameRight]
    | _ =>
      rw [evaluate, evaluate, sameLeft, sameRight]
      all_goals exact fun same => by contradiction

theorem evaluateAll_congr {a b : EvalContext} (args : List Expr) (agrees : ∀ e ∈ args, a.AgreesOn b e) :
    evaluateAll a args = evaluateAll b args := by
  cases args with
  | nil => rw [evaluateAll, evaluateAll]
  | cons first rest =>
    have sameFirst := evaluate_congr first (agrees first List.mem_cons_self)
    have sameRest := evaluateAll_congr rest fun e member => agrees e (List.mem_cons_of_mem first member)
    rw [evaluateAll, evaluateAll, sameFirst, sameRest]

end

theorem mem_namesOfAll {name : String} {args : List Expr} {e : Expr} (among : e ∈ args) (named : name ∈ e.names) :
    name ∈ Expr.namesOfAll args := by
  induction args with
  | nil => exact absurd among List.not_mem_nil
  | cons first rest inductionHypothesis =>
    rcases List.mem_cons.mp among with rfl | among
    · exact List.mem_append_left _ named
    · exact List.mem_append_right _ (inductionHypothesis among)

/-- What an expression can look up is one of its identifiers. -/
theorem Expr.MayRead.named {name : String} {offset : Nat} {e : Expr} (read : e.MayRead name offset) : name ∈ e.names := by
  induction read with
  | identifier => exact List.mem_singleton_self name
  | lookback => exact List.mem_append_left _ (List.mem_singleton_self name)
  | index _ inductionHypothesis => exact List.mem_append_right _ inductionHypothesis
  | arg _ inductionHypothesis => exact inductionHypothesis
  | left _ inductionHypothesis => exact List.mem_append_left _ inductionHypothesis
  | right _ inductionHypothesis => exact List.mem_append_right _ inductionHypothesis
  | args among _ inductionHypothesis => exact mem_namesOfAll among inductionHypothesis

/-- Over one history, contexts agree on an expression if they bind its identifiers alike. -/
theorem EvalContext.agreesOn_of_bindings {a b : EvalContext} {e : Expr} (sameHistory : a.history = b.history)
    (alike : ∀ name ∈ e.names, valueOf? name a.bindings = valueOf? name b.bindings) : a.AgreesOn b e := by
  intro name offset read
  rw [lookup, lookup, sameHistory, alike name read.named]

theorem evaluateNumber_congr {a b : EvalContext} {e : Expr} (agrees : a.AgreesOn b e) :
    evaluateNumber a e = evaluateNumber b e := by
  unfold evaluateNumber
  rw [evaluate_congr e agrees]

end TradingStrategy

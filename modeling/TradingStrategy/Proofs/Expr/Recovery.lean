import TradingStrategy.Expr.Codec
import TradingStrategy.Proofs.Expr.RoundTrip
import TradingStrategy.Proofs.Json.Recovery

/-!
Expressions are recovered from their persistent form.

Owns: `recovers`: an expression is recovered from what stands in a text for its JSON form exactly if its numbers are
finite. No more depth is needed than the form has, because every node of an expression is at least one container there.
-/

namespace TradingStrategy

open Json (Recovers height heightOfFields heightOfItems)

theorem Value.recovers (value : Value) :
    Recovers ofJson? value.toJson (∀ n ∈ (Expr.literal value).numbers, n.isFinite = true) value := by
  intro found
  cases value with
  | boolean value => simp [toJson, ofJson?, Expr.numbers]
  | number x =>
    have notBoolean : ofJson? (Json.float x).written = (Json.float x).written.number?.map number := by
      rw [Json.written]
      split <;> rfl
    simp [toJson, notBoolean, Expr.numbers, Json.recovers_float x _]

namespace Expr

/-- Induction over the arguments of calls. -/
theorem induction {motive : Expr → Prop} (literal : ∀ value, motive (.literal value))
    (identifier : ∀ name, motive (.identifier name))
    (binary : ∀ op left right, motive left → motive right → motive (.binary op left right))
    (unary : ∀ op arg, motive arg → motive (.unary op arg))
    (call : ∀ name args, (∀ arg ∈ args, motive arg) → motive (.call name args))
    (lookback : ∀ object index, motive object → motive index → motive (.lookback object index)) (e : Expr) :
    motive e :=
  @Expr.rec motive (fun args => ∀ arg ∈ args, motive arg) literal identifier binary unary call lookback (by simp)
    (fun _ _ first rest => List.forall_mem_cons.mpr ⟨first, rest⟩) e

theorem listToJson_eq (args : List Expr) : listToJson args = args.map toJson := by
  induction args with
  | nil => rfl
  | cons first rest inductionHypothesis => rw [listToJson, inductionHypothesis, List.map_cons]

theorem numbersOfAll_eq (args : List Expr) : numbersOfAll args = args.flatMap numbers := by
  induction args with
  | nil => rfl
  | cons first rest inductionHypothesis => rw [numbersOfAll, inductionHypothesis, List.flatMap_cons]

theorem choice?_binary (op : BinaryOp) (nested : Bool) :
    Json.choice? BinaryOp.symbol BinaryOp.all nested (.string op.symbol) = some op := by
  cases op <;> rfl

theorem choice?_unary (op : UnaryOp) (nested : Bool) :
    Json.choice? UnaryOp.symbol UnaryOp.all nested (.string op.symbol) = some op := by
  cases op <;> rfl

/-- An expression is recovered within a depth, as the content of a tagged value or not. -/
def RecoversWithin (depth : ℕ) (e : Expr) : Prop :=
  ∀ nested, Recovers (ofJsonWithin depth nested) e.toJson (∀ n ∈ e.numbers, n.isFinite = true) e

section Nodes

variable {depth : ℕ}

theorem recovers_literal (value : Value) : RecoversWithin (depth + 1) (.literal value) := by
  intro nested found
  show (do return literal (← Value.ofJson? value.toJson.written)) = some found ↔ _
  simp [Option.bind_eq_some_iff, value.recovers _]

theorem recovers_identifier (name : String) : RecoversWithin (depth + 1) (.identifier name) := by
  intro nested found
  show some (identifier name) = some found ↔ _
  simp [numbers]

theorem recovers_binary {op : BinaryOp} {left right : Expr} (isLeft : RecoversWithin depth left)
    (isRight : RecoversWithin depth right) : RecoversWithin (depth + 1) (.binary op left right) := by
  intro nested found
  show (do
    return binary (← Json.choice? BinaryOp.symbol BinaryOp.all true (.string op.symbol))
      (← ofJsonWithin depth true left.toJson.written) (← ofJsonWithin depth true right.toJson.written)) =
    some found ↔ _
  simp [choice?_binary, Option.bind_eq_some_iff, isLeft true _, isRight true _, numbers, or_imp, forall_and, and_assoc]

theorem recovers_unary {op : UnaryOp} {arg : Expr} (isArg : RecoversWithin depth arg) :
    RecoversWithin (depth + 1) (.unary op arg) := by
  intro nested found
  show (do
    return unary (← Json.choice? UnaryOp.symbol UnaryOp.all true (.string op.symbol))
      (← ofJsonWithin depth true arg.toJson.written)) = some found ↔ _
  simp [choice?_unary, Option.bind_eq_some_iff, isArg true _, numbers]

theorem recovers_call {name : String} {args : List Expr} (areArgs : ∀ arg ∈ args, RecoversWithin depth arg) :
    RecoversWithin (depth + 1) (.call name args) := by
  intro nested found
  have areRecovered := Json.recovers_list fun arg member => areArgs arg member true
  have apart : (∀ n ∈ (call name args).numbers, n.isFinite = true) ↔
      ∀ arg ∈ args, ∀ n ∈ arg.numbers, n.isFinite = true := by
    rw [numbers, numbersOfAll_eq]
    exact List.forall_mem_flatMap
  show (do return call name (← Json.list? (ofJsonWithin depth true) (Json.array (listToJson args)).written)) =
    some found ↔ _
  rw [apart, listToJson_eq]
  simp [Option.bind_eq_some_iff, areRecovered _]

theorem recovers_lookback {object index : Expr} (isObject : RecoversWithin depth object)
    (isIndex : RecoversWithin depth index) : RecoversWithin (depth + 1) (.lookback object index) := by
  intro nested found
  show (do
    return lookback (← ofJsonWithin depth true object.toJson.written)
      (← ofJsonWithin depth true index.toJson.written)) = some found ↔ _
  simp [Option.bind_eq_some_iff, isObject true _, isIndex true _, numbers, or_imp, forall_and, and_assoc]

end Nodes

theorem toJson_height_pos (e : Expr) : 0 < e.toJson.height := by
  cases e <;> simp [toJson, height]

/-- Every node is a container of the JSON form, so no more depth is needed than the form has. -/
theorem recoversWithin_of_height (e : Expr) {depth : ℕ} (deep : e.toJson.height ≤ depth) : RecoversWithin depth e := by
  induction e using induction generalizing depth
  all_goals obtain ⟨depth, rfl⟩ := Nat.exists_eq_add_one.mpr (lt_of_lt_of_le (toJson_height_pos _) deep)
  case literal value => exact recovers_literal value
  case identifier name => exact recovers_identifier name
  case binary op left right isLeft isRight =>
    simp only [toJson, height, heightOfFields, zero_le, sup_of_le_left, le_sup_iff, or_self, sup_of_le_right,
      add_le_add_iff_right, sup_le_iff] at deep
    exact recovers_binary (isLeft deep.1) (isRight deep.2)
  case unary op arg isArg =>
    simp only [toJson, height, heightOfFields, zero_le, sup_of_le_left, sup_of_le_right, add_le_add_iff_right] at deep
    exact recovers_unary (isArg deep)
  case call name args areArgs =>
    apply recovers_call
    intro arg member
    apply areArgs arg member
    have inArgs : arg.toJson.height ≤ heightOfItems (args.map toJson) :=
      Json.heightOfItems_le_iff.mp le_rfl _ (List.mem_map_of_mem member)
    simp only [toJson, listToJson_eq, height, heightOfFields, le_add_iff_nonneg_left, zero_le, sup_of_le_left,
      sup_of_le_right, add_le_add_iff_right] at deep
    omega
  case lookback object index isObject isIndex =>
    simp only [toJson, height, heightOfFields, zero_le, sup_of_le_left, le_sup_iff, or_self, sup_of_le_right,
      add_le_add_iff_right, sup_le_iff] at deep
    exact recovers_lookback (isObject deep.1) (isIndex deep.2)

/-- An expression is recovered exactly if its numbers are finite. -/
theorem recovers (e : Expr) (nested : Bool) :
    Recovers (ofJson? nested) e.toJson (∀ n ∈ e.numbers, n.isFinite = true) e :=
  recoversWithin_of_height e (Json.height_written _).ge nested

end Expr

end TradingStrategy

import TradingStrategy.Proofs.Expr.Agreement

/-!
The reads of an expression as its footprint.

Owns:
- `Expr.HasFixedOffsets`: every access to the history names a feature and gives its offset as a number;
- `mem_historyReads_iff`: the reads that are listed of such an expression are exactly its possible lookups;
- `EvalContext.SharesRead`: what two contexts must have in common for a lookup to be the same in both;
- `reads_are_footprint`: two contexts that share all listed reads give the expression the same value, or fail with the
  same error.

A computed offset is listed only through the parts of its index, so of other expressions the reads are no footprint.
-/

namespace TradingStrategy

namespace Expr

/-- Every access to the history names a feature, and its offset is a number literal. -/
inductive HasFixedOffsets : Expr → Prop where
  | literal (value : Value) : HasFixedOffsets (literal value)
  | identifier (name : String) : HasFixedOffsets (identifier name)
  | lookback (name : String) (offset : Float) : HasFixedOffsets (lookback (identifier name) (number offset))
  | unary (op : UnaryOp) {arg : Expr} (fixed : HasFixedOffsets arg) : HasFixedOffsets (unary op arg)
  | binary (op : BinaryOp) {left right : Expr} (fixedLeft : HasFixedOffsets left)
      (fixedRight : HasFixedOffsets right) : HasFixedOffsets (binary op left right)
  | call (name : String) {args : List Expr} (fixed : ∀ arg ∈ args, HasFixedOffsets arg) :
      HasFixedOffsets (call name args)

variable {name : String} {offset : Nat} {e : Expr}

theorem readsOfAll_eq_flatMap (args : List Expr) : readsOfAll args = args.flatMap reads := by
  induction args with
  | nil => rfl
  | cons first rest inductionHypothesis => rw [readsOfAll, inductionHypothesis, List.flatMap_cons]

/-! ### Reads and lookups -/

/-- With fixed offsets, what can be looked up is listed. -/
theorem MayRead.mem_reads (read : e.MayRead name offset) (fixed : e.HasFixedOffsets) : (name, offset) ∈ e.reads := by
  induction read with
  | identifier newest =>
    rw [newest]
    exact List.mem_singleton_self _
  | lookback bounds =>
    cases fixed with
    | lookback _ n =>
      rw [bounds n rfl]
      exact List.mem_singleton_self _
  | index inIndex =>
    -- The index is a literal, which reads nothing.
    cases fixed with
    | lookback => cases inIndex
  | arg _ inductionHypothesis =>
    cases fixed with
    | unary _ fixedArg => exact inductionHypothesis fixedArg
  | left _ inductionHypothesis =>
    cases fixed with
    | binary _ fixedLeft _ => exact List.mem_append_left _ (inductionHypothesis fixedLeft)
  | right _ inductionHypothesis =>
    cases fixed with
    | binary _ _ fixedRight => exact List.mem_append_right _ (inductionHypothesis fixedRight)
  | args among _ inductionHypothesis =>
    cases fixed with
    | call _ fixedArgs =>
      rw [reads, readsOfAll_eq_flatMap, List.mem_flatMap]
      exact ⟨_, among, inductionHypothesis (fixedArgs _ among)⟩

/-- Conversely nothing is listed that cannot be looked up. -/
theorem HasFixedOffsets.mayRead (fixed : e.HasFixedOffsets) (listed : (name, offset) ∈ e.reads) :
    e.MayRead name offset := by
  induction fixed with
  | literal value => exact absurd listed List.not_mem_nil
  | identifier =>
    obtain ⟨rfl, rfl⟩ := Prod.mk.inj (List.mem_singleton.mp listed)
    exact .identifier rfl
  | lookback _ n =>
    obtain ⟨rfl, rfl⟩ := Prod.mk.inj (List.mem_singleton.mp listed)
    refine .lookback fun other isLiteral => ?_
    rw [Value.number.inj (Expr.literal.inj isLiteral)]
  | unary op _ inductionHypothesis => exact .arg (inductionHypothesis listed)
  | binary op _ _ leftHypothesis rightHypothesis =>
    rcases List.mem_append.mp listed with inLeft | inRight
    · exact .left (leftHypothesis inLeft)
    · exact .right (rightHypothesis inRight)
  | call function _ inductionHypothesis =>
    rw [reads, readsOfAll_eq_flatMap, List.mem_flatMap] at listed
    obtain ⟨arg, among, inArg⟩ := listed
    exact .args among (inductionHypothesis arg among inArg)

/-- The listed reads of an expression with fixed offsets are its possible lookups. -/
theorem mem_historyReads_iff (fixed : e.HasFixedOffsets) : (name, offset) ∈ e.historyReads ↔ e.MayRead name offset := by
  rw [historyReads, Text.mem_ascending]
  exact ⟨fixed.mayRead, fun read => read.mem_reads fixed⟩

end Expr

namespace EvalContext

/-- The newest snapshot has a value for a name. -/
def newestHas (context : EvalContext) (name : String) : Bool :=
  (context.history.latest?.bind fun snapshot => snapshot.get? name).isSome

/-- Two contexts have in common whether a name is a runtime variable and of which value, whether the newest snapshot has
the name, and the value of the name so many bars back. -/
structure SharesRead (a b : EvalContext) (name : String) (offset : Nat) : Prop where
  bound : valueOf? name a.bindings = valueOf? name b.bindings
  known : a.newestHas name = b.newestHas name
  value : a.history.value? name offset = b.history.value? name offset

theorem lookup_unbound {context : EvalContext} {name : String} {offset : Nat}
    (unbound : valueOf? name context.bindings = none) :
    context.lookup name offset =
      if context.newestHas name then .ok ((context.history.value? name offset).getD Number.nan)
      else .error (.unknownIdentifier name) := by
  rw [lookup, unbound, newestHas]
  dsimp only
  split
  · next missing => rw [missing]; rfl
  · next present => rw [present]; rfl

/-- A lookup consults nothing else. -/
theorem SharesRead.lookup_eq {a b : EvalContext} {name : String} {offset : Nat} (shares : a.SharesRead b name offset) :
    a.lookup name offset = b.lookup name offset := by
  cases isBound : valueOf? name a.bindings with
  | some value => rw [lookup, lookup, ← shares.bound, isBound]
  | none => rw [lookup_unbound isBound, lookup_unbound (shares.bound ▸ isBound), shares.known, shares.value]

end EvalContext

/-- The listed reads of an expression with fixed offsets are a footprint: contexts that share them give the expression
the same value, or fail with the same error. -/
theorem reads_are_footprint {a b : EvalContext} {e : Expr} (fixed : e.HasFixedOffsets)
    (shares : ∀ name offset, (name, offset) ∈ e.historyReads → a.SharesRead b name offset) :
    evaluate a e = evaluate b e := by
  apply evaluate_congr
  intro name offset read
  exact (shares name offset ((Expr.mem_historyReads_iff fixed).mpr read)).lookup_eq

/-! ### Two histories of one guard -/

/-- The close is above the average of two bars ago, and the low of the last bar was above the stop. -/
def reboundGuard : Expr :=
  .binary .and (.binary .gt (.identifier "close") ((Expr.identifier "ema_20").barsBack 2))
    (.binary .gt ((Expr.identifier "low").barsBack 1) (.identifier "stop"))

/-- Three bars with what the guard reads. -/
def shortContext : EvalContext :=
  { history := ⟨3, [⟨⟨180, 0⟩, [("close", 102.0), ("low", 100.0), ("ema_20", Number.nan)]⟩,
      ⟨⟨120, 0⟩, [("low", 97.0)]⟩, ⟨⟨60, 0⟩, [("ema_20", 99.5)]⟩]⟩
    bindings := [("stop", 95.0)] }

/-- The same reads in a longer history with other values elsewhere, and with more variables. -/
def longContext : EvalContext :=
  { history := ⟨100, [⟨⟨181, 0⟩, [("ema_20", 101.0), ("close", 102.0), ("low", 12.0), ("rsi_14", 70.0)]⟩,
      ⟨⟨121, 0⟩, [("close", 3.0), ("low", 97.0)]⟩, ⟨⟨61, 0⟩, [("low", 1.0), ("ema_20", 99.5)]⟩,
      ⟨⟨1, 0⟩, [("close", 7.0)]⟩]⟩
    bindings := [("entry", 101.0), ("stop", 95.0)] }

theorem rebound_reads_are_footprint :
    reboundGuard.HasFixedOffsets ∧
      (∀ name offset, (name, offset) ∈ reboundGuard.historyReads → shortContext.SharesRead longContext name offset) ∧
      shortContext.lookup "low" 0 ≠ longContext.lookup "low" 0 ∧
      evaluate shortContext reboundGuard = evaluate longContext reboundGuard := by
  have fixed : reboundGuard.HasFixedOffsets :=
    .binary .and (.binary .gt (.identifier "close") (.lookback "ema_20" _))
      (.binary .gt (.lookback "low" _) (.identifier "stop"))
  have shares : ∀ name offset, (name, offset) ∈ reboundGuard.historyReads →
      shortContext.SharesRead longContext name offset := by
    have reads : reboundGuard.reads = [("close", 0), ("ema_20", 2), ("low", 1), ("stop", 0)] := by decide
    intro name offset listed
    rw [Expr.historyReads, Text.mem_ascending, reads] at listed
    simp only [List.mem_cons, Prod.mk.injEq, List.not_mem_nil, or_false] at listed
    rcases listed with ⟨rfl, rfl⟩ | ⟨rfl, rfl⟩ | ⟨rfl, rfl⟩ | ⟨rfl, rfl⟩ <;>
      exact ⟨by decide, by decide, by decide⟩
  have differs : shortContext.lookup "low" 0 ≠ longContext.lookup "low" 0 := by
    intro same
    have same : (100.0 : Float) = 12.0 := Except.ok.inj same
    exact absurd same (by decide)
  exact ⟨fixed, shares, differs, reads_are_footprint fixed shares⟩

end TradingStrategy

import TradingStrategy.Proofs.Expr.Acceptance

/-!
Indexes of expressions that were read.

Owns:
- the form of an index that the grammar lets pass;
- `parse_indexed`: in an expression that was read, only names are indexed, and an index that is a literal is a whole
  number in the range of offsets.

What was read is denoted, so this is a property of derivations, by induction over them.
-/

namespace TradingStrategy.Expr

/-- An index that is a literal is an offset; what any other index stands for is known only in a context. -/
def AdmittedIndex : Expr → Prop
  | literal (.number n) => isOffset n = true
  | literal (.boolean _) => False
  | _ => True

mutual

/-- Only names are indexed, and every index is admitted. -/
def Indexed : Expr → Prop
  | literal _ => True
  | identifier _ => True
  | binary _ left right => Indexed left ∧ Indexed right
  | unary _ arg => Indexed arg
  | call _ args => AllIndexed args
  | lookback object index => (∃ name, object = identifier name) ∧ AdmittedIndex index ∧ Indexed index

/-- The same for several expressions. -/
def AllIndexed : List Expr → Prop
  | [] => True
  | first :: rest => Indexed first ∧ AllIndexed rest

end

theorem Offset.admitted {index offset : Expr} (isOffset : Offset index offset) : AdmittedIndex offset := by
  cases isOffset with
  | folded _ inRange => exact inRange
  | kept notConstant notBoolean =>
    -- A literal is a constant or a boolean, so an index that is kept as it is is none.
    cases index with
    | literal value =>
      cases value with
      | number n => exact (notConstant n (.number n)).elim
      | boolean value => exact (notBoolean value rfl).elim
    | _ => trivial

theorem Offset.indexed {index offset : Expr} (isOffset : Offset index offset) (indexed : Indexed index) :
    Indexed offset := by
  cases isOffset with
  | folded => trivial
  | kept => exact indexed

mutual

private theorem Binary.indexed {level : Nat} {tokens : List Token} {e : Expr} : Binary level tokens e → Indexed e
  | .prefixed rest => rest.indexed
  | .tighter _ rest => rest.indexed
  | .apply _ isLeft isRight => ⟨isLeft.indexed, isRight.indexed⟩

private theorem Prefixed.indexed {tokens : List Token} {e : Expr} : Prefixed tokens e → Indexed e
  | .operand isOperand => isOperand.indexed
  | .apply isArg => isArg.indexed

private theorem Operand.indexed {tokens : List Token} {e : Expr} : Operand tokens e → Indexed e
  | .boolean _ => trivial
  | .number _ _ => trivial
  | .identifier _ _ => trivial
  | .call _ _ areArgs => areArgs.indexed
  | .lookback _ _ isIndex isOffset => ⟨⟨_, rfl⟩, isOffset.admitted, isOffset.indexed isIndex.indexed⟩
  | .parentheses inner => inner.indexed

private theorem Arguments.indexed {tokens : List Token} {args : List Expr} : Arguments tokens args → AllIndexed args
  | .none => trivial
  | .some areListed => areListed.indexed

private theorem Listed.indexed {tokens : List Token} {args : List Expr} : Listed tokens args → AllIndexed args
  | .last isArg => ⟨isArg.indexed, trivial⟩
  | .more isArg areOthers => ⟨isArg.indexed, areOthers.indexed⟩

end

/-- In an expression that was read, only names are indexed, and every index is admitted. -/
theorem parse_indexed {text : String} {e : Expr} (read : parse text = .ok e) : Indexed e := by
  obtain ⟨tokens, -, derived⟩ := denotes_of_parse read
  exact derived.indexed

end TradingStrategy.Expr

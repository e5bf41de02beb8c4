import TradingStrategy.Expr.Basic

/-!
The written form of expressions.

Owns: one form per tree, with every binary operation in parentheses and one blank around its operator. Reading the
form of a tree that was itself read gives the tree back.
-/

namespace TradingStrategy.Expr

mutual

def chars : Expr → List Char
  | literal value => value.chars
  | identifier name => name.toList
  | binary op left right => '(' :: chars left ++ ' ' :: op.symbol.toList ++ ' ' :: chars right ++ [')']
  | unary op arg => op.symbol.toList ++ chars arg
  | call name args => name.toList ++ '(' :: argumentChars args ++ [')']
  | lookback object index => chars object ++ '[' :: chars index ++ [']']

/-- The characters of arguments, with a comma and a blank between them. -/
def argumentChars : List Expr → List Char
  | [] => []
  | [arg] => chars arg
  | arg :: rest => chars arg ++ ',' :: ' ' :: argumentChars rest

end

def text (e : Expr) : String :=
  String.ofList e.chars

end TradingStrategy.Expr

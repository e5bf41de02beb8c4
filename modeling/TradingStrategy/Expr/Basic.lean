import TradingStrategy.Number.Notation
import TradingStrategy.Text.Ascending

/-!
Expressions of guards and prices.

Owns:
- the values, numbers and booleans, and the operators;
- the syntax tree, with `name[offset]` reading a feature bars back;
- what an expression mentions: its identifiers, its reads of the history and its calls;
- the disjunction of several expressions and equality of trees by the values of their numbers.

A member `macd.histogram` is the identifier `macd_histogram`; there is no node for it.
-/

namespace TradingStrategy

/-- A value of an expression. -/
inductive Value where
  | number (value : Float)
  | boolean (value : Bool)
deriving Repr, DecidableEq

namespace Value

/-- The name of a value's type. -/
def typeName : Value → String
  | number _ => "number"
  | boolean _ => "boolean"

def chars : Value → List Char
  | number value => Number.plainChars value
  | boolean true => ['t', 'r', 'u', 'e']
  | boolean false => ['f', 'a', 'l', 's', 'e']

def text (value : Value) : String :=
  String.ofList value.chars

/-- Equality that compares numbers as numbers: both zeros are equal, and what is no number equals nothing. -/
def agrees : Value → Value → Bool
  | number a, number b => a == b
  | boolean a, boolean b => a == b
  | _, _ => false

end Value

/-- The operators between two expressions. -/
inductive BinaryOp where
  | add | sub | mul | div | rem
  | lt | gt | le | ge | eq | ne
  | and | or
deriving Repr, DecidableEq

namespace BinaryOp

/-- Every operator. -/
def all : List BinaryOp :=
  [add, sub, mul, div, rem, lt, gt, le, ge, eq, ne, and, or]

/-- The sign of an operator. -/
def symbol : BinaryOp → String
  | add => "+" | sub => "-" | mul => "*" | div => "/" | rem => "%"
  | lt => "<" | gt => ">" | le => "<=" | ge => ">=" | eq => "==" | ne => "!="
  | and => "&&" | or => "||"

/-- How tightly an operator binds, from 1 for the loosest to 6. -/
def precedence : BinaryOp → Nat
  | or => 1
  | and => 2
  | eq | ne => 3
  | lt | gt | le | ge => 4
  | add | sub => 5
  | mul | div | rem => 6

end BinaryOp

/-- The operators in front of one expression. -/
inductive UnaryOp where
  | neg | plus | not
deriving Repr, DecidableEq

namespace UnaryOp

/-- Every operator. -/
def all : List UnaryOp :=
  [neg, plus, not]

/-- The sign of an operator. -/
def symbol : UnaryOp → String
  | neg => "-" | plus => "+" | not => "!"

end UnaryOp

/-- An expression. -/
inductive Expr where
  | literal (value : Value)
  | identifier (name : String)
  | binary (op : BinaryOp) (left right : Expr)
  | unary (op : UnaryOp) (arg : Expr)
  | call (name : String) (args : List Expr)
  /-- The value of `object` as many bars back as `index` says. -/
  | lookback (object index : Expr)
deriving Repr, Inhabited

namespace Expr

/-- The deepest offset into the history that an expression may name; 0 is the newest bar. -/
def maxOffset : Nat := 99

def number (value : Float) : Expr :=
  literal (.number value)

def boolean (value : Bool) : Expr :=
  literal (.boolean value)

/-- The expression that reads `object` a fixed number of bars back. -/
def barsBack (object : Expr) (offset : Nat) : Expr :=
  lookback object (number (Float.ofNat offset))

/-- The disjunction of expressions, grouped to the left; of none it is `false`. -/
def anyOf : List Expr → Expr
  | [] => boolean false
  | first :: rest => rest.foldl (binary .or) first

/-! ### What an expression mentions -/

mutual

/-- The identifiers of an expression, left to right. -/
def names : Expr → List String
  | literal _ => []
  | identifier name => [name]
  | binary _ left right => names left ++ names right
  | unary _ arg => names arg
  | call _ args => namesOfAll args
  | lookback object index => names object ++ names index

/-- The identifiers of several expressions. -/
def namesOfAll : List Expr → List String
  | [] => []
  | first :: rest => names first ++ namesOfAll rest

end

mutual

/-- The reads of an expression as pairs of a name and an offset, left to right. An identifier reads offset 0, an
identifier with a number as its offset that offset. Of any other offset the parts are listed. -/
def reads : Expr → List (String × Nat)
  | literal _ => []
  | identifier name => [(name, 0)]
  | binary _ left right => reads left ++ reads right
  | unary _ arg => reads arg
  | call _ args => readsOfAll args
  | lookback (identifier name) (literal (.number offset)) => [(name, Number.toNatClamped offset)]
  | lookback object index => reads object ++ reads index

/-- The reads of several expressions. -/
def readsOfAll : List Expr → List (String × Nat)
  | [] => []
  | first :: rest => reads first ++ readsOfAll rest

end

mutual

/-- The calls of an expression with their numbers of arguments; a call stands before those in its arguments. -/
def calls : Expr → List (String × Nat)
  | literal _ => []
  | identifier _ => []
  | binary _ left right => calls left ++ calls right
  | unary _ arg => calls arg
  | call name args => (name, args.length) :: callsOfAll args
  | lookback object index => calls object ++ calls index

/-- The calls of several expressions. -/
def callsOfAll : List Expr → List (String × Nat)
  | [] => []
  | first :: rest => calls first ++ callsOfAll rest

end

/-- The identifiers in ascending order, each once. -/
def identifiers (e : Expr) : List String :=
  Text.ascendingNames e.names

/-- The reads of the history in ascending order, each once. -/
def historyReads (e : Expr) : List (String × Nat) :=
  Text.ascending (fun a b => decide (a.1 < b.1) || (a.1 == b.1 && a.2 < b.2)) e.reads

/-! ### Equality of trees -/

mutual

/-- Equality of trees in which numbers are compared by value. -/
def agrees : Expr → Expr → Bool
  | literal a, literal b => a.agrees b
  | identifier a, identifier b => a == b
  | binary op left right, binary op' left' right' => op == op' && agrees left left' && agrees right right'
  | unary op arg, unary op' arg' => op == op' && agrees arg arg'
  | call name args, call name' args' => name == name' && agreeAll args args'
  | lookback object index, lookback object' index' => agrees object object' && agrees index index'
  | _, _ => false

/-- Equality of lists of trees. -/
def agreeAll : List Expr → List Expr → Bool
  | [], [] => true
  | first :: rest, first' :: rest' => agrees first first' && agreeAll rest rest'
  | _, _ => false

end

end Expr

end TradingStrategy

import TradingStrategy.History.Basic
import TradingStrategy.Json.Value

/-!
Features.

Owns:
- features: a name, the names of the features that it reads, and its value at a view;
- descriptors, the part of a feature that a plan carries.

A feature is computed once per bar, after everything that it depends on was written into the current snapshot. While it
warms up its value is no number.
-/

namespace TradingStrategy

/-- The kinds of features. -/
inductive FeatureKind where
  | builtin | indicator | microstructure
deriving Repr, DecidableEq

namespace FeatureKind

def all : List FeatureKind :=
  [builtin, indicator, microstructure]

def name : FeatureKind → String
  | builtin => "builtin"
  | indicator => "indicator"
  | microstructure => "microstructure"

def ofName? (text : String) : Option FeatureKind :=
  all.find? fun kind => kind.name == text

end FeatureKind

/-- A named value per bar. -/
structure Feature where
  name : String
  kind : FeatureKind
  dependencies : List String
  compute : View → Float

namespace Feature

/-- A feature with the same value at every bar. -/
def constant (name : String) (kind : FeatureKind) (dependencies : List String) (value : Float) : Feature :=
  ⟨name, kind, dependencies, fun _ => value⟩

end Feature

/-- An entry of a feature plan. -/
structure FeatureDescriptor where
  name : String
  kind : FeatureKind
  dependencies : List String
  params : Json
deriving Repr

/-- The sum of numbers, first to last. The negative zero leaves every number as it is. -/
def sumOf (numbers : List Float) : Float :=
  numbers.foldl (· + ·) (-0.0)

end TradingStrategy

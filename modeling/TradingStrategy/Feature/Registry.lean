import TradingStrategy.Feature.Momentum
import TradingStrategy.Feature.Microstructure
import TradingStrategy.Text.Quoted

/-!
The registry of features.

Owns:
- registration under distinct names that are not builtin;
- the names and descriptors of what is known;
- the check of declared names;
- the default catalogue.
-/

namespace TradingStrategy

/-- Why a registry refuses a feature or a request. -/
inductive RegistryError where
  | builtinCollision (name : String)
  | duplicate (name : String)
  | unknownFeatures (names available : List String)
  | unknownDependency (feature dependency : String)
  | cycle (path : List String)
deriving Repr, DecidableEq

def RegistryError.message : RegistryError → String
  | builtinCollision name => "feature '" ++ name ++ "' collides with a builtin"
  | duplicate name => "feature '" ++ name ++ "' is already registered"
  | unknownFeatures names available =>
      "unregistered features " ++ Text.quotedList names ++ "; available: " ++ Text.quotedList available
  | unknownDependency feature dependency =>
      "feature '" ++ feature ++ "' depends on unregistered '" ++ dependency ++ "'"
  | cycle path => "feature dependency cycle: " ++ String.intercalate " -> " path

/-- The registered features in ascending order of their names. -/
structure Registry where
  features : List Feature

namespace Registry

/-- A registry that knows only the builtin features. -/
def empty : Registry :=
  ⟨[]⟩

/-- The registered feature with a name. -/
def get? (registry : Registry) (name : String) : Option Feature :=
  registry.features.find? fun feature => feature.name == name

/-- Puts a feature in front of the first one with a greater name. -/
def insertFeature (feature : Feature) : List Feature → List Feature
  | [] => [feature]
  | head :: rest =>
      if feature.name < head.name then feature :: head :: rest else head :: insertFeature feature rest

/-- Adds a feature under a name that is neither builtin nor taken. -/
def register (registry : Registry) (feature : Feature) : Except RegistryError Registry :=
  if isBuiltin feature.name then .error (.builtinCollision feature.name)
  else if (registry.get? feature.name).isSome then .error (.duplicate feature.name)
  else .ok ⟨insertFeature feature registry.features⟩

/-- A name is builtin or registered. -/
def contains (registry : Registry) (name : String) : Bool :=
  isBuiltin name || (registry.get? name).isSome

/-- The builtin names, and the registered ones in ascending order. -/
def names (registry : Registry) : List String :=
  builtinFeatures ++ registry.features.map Feature.name

/-- The descriptor of a known feature. -/
def describe? (registry : Registry) (name : String) : Option FeatureDescriptor :=
  if isBuiltin name then some ⟨name, .builtin, [], .null⟩
  else (registry.get? name).map fun feature => ⟨name, feature.kind, feature.dependencies, .null⟩

/-- Checks that all declared names are known, and reports the others together. -/
def checkDeclared (registry : Registry) (declared : List String) : Except RegistryError Unit :=
  match declared.filter fun name => !registry.contains name with
  | [] => .ok ()
  | unknown => .error (.unknownFeatures unknown registry.names)

/-- Adds features one after another; one that is refused is left out. -/
def registerAll (registry : Registry) (features : List Feature) : Registry :=
  features.foldl (fun registry feature => (registry.register feature).toOption.getD registry) registry

end Registry

/-- The features of the default catalogue. -/
def defaultFeatures : List Feature :=
  [.sma "sma_10" "close" 10, .sma "sma_20" "close" 20, .sma "sma_50" "close" 50,
    .ema "ema_9" "close" 9, .ema "ema_12" "close" 12, .ema "ema_20" "close" 20, .ema "ema_21" "close" 21,
    .ema "ema_26" "close" 26, .ema "ema_50" "close" 50, .wma "wma_20" "close" 20,
    .deviation "stddev_20" "close" 20, .roc "roc_10" "close" 10, .obv, .atr "atr_14" 14, .atr "atr" 14] ++
  Feature.rsi "rsi_2" 2 ++ Feature.rsi "rsi_14" 14 ++ Feature.rsi "rsi" 14 ++ Feature.bands 20 2.0 ++
  Feature.macd 12 26 9 ++ Feature.vwap ++ Feature.shapes

/-- The registry of the default catalogue. -/
def Registry.default : Registry :=
  Registry.empty.registerAll defaultFeatures

end TradingStrategy

import TradingStrategy.Feature.Basic
import TradingStrategy.Json.Record

/-!
Feature descriptors as JSON values.

Owns: the form of an entry of a feature plan. Parameters are written only where there are any; dependencies and
parameters may be missing when an entry is read.
-/

namespace TradingStrategy

/-- A field that is written only if its value is not null. -/
def Json.fieldUnlessNull (name : String) : Json → List (String × Json)
  | .null => []
  | value => [(name, value)]

namespace FeatureDescriptor

def toJson (descriptor : FeatureDescriptor) : Json :=
  .object ([("name", .string descriptor.name), ("kind", .string descriptor.kind.name),
    ("dependencies", .array (descriptor.dependencies.map .string))] ++
    Json.fieldUnlessNull "params" descriptor.params)

def ofJson? (json : Json) : Option FeatureDescriptor := do
  match ← json.record? ["name", "kind", "dependencies", "params"] with
  | [some name, some kind, dependencies, params] =>
      return {
        name := ← name.string?
        kind := ← kind.choice? FeatureKind.name FeatureKind.all false
        dependencies := ← match dependencies with
          | some list => list.list? Json.string?
          | none => some []
        params := (params.getD .null).canonical }
  | _ => none

end FeatureDescriptor

end TradingStrategy

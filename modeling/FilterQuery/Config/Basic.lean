import FilterQuery.Error
import FilterQuery.Model.Registry
import FilterQuery.Session

/-!
# Configurations

A configuration declares how providers are reached and which models there are. A
field that gives a type also gets an entry in the schema of its model.
-/

namespace FilterQuery

/-- The declaration of a field. -/
structure FieldSpec where
  key : String
  path : String
  type : Option FieldType := none
  required : Option Bool := none
  nullable : Option Bool := none
deriving DecidableEq, Repr

/-- The declaration of a model. -/
structure ModelSpec where
  name : String
  object : String
  provider : Provider
  fields : List FieldSpec := []
  relations : List Relation := []
deriving DecidableEq, Repr

/-- A configuration. -/
structure Config where
  providers : Providers := {}
  models : List ModelSpec := []
deriving DecidableEq, Repr

namespace FieldSpec

/-- The entry of a field in the schema, if it gives a type: required and not
nullable unless it says otherwise. -/
def schema? (f : FieldSpec) : Option FieldSchema :=
  f.type.map fun type =>
    { type, required := f.required.getD true, nullable := f.nullable.getD false }

/-- Adds the entry of a field to a schema. -/
def addTo (schema : Schema) (f : FieldSpec) : Schema :=
  match f.schema? with
  | some s => schema.declare f.key s
  | none => schema

end FieldSpec

namespace ModelSpec

/-- The draft of a declared model. -/
def draft (spec : ModelSpec) : Draft where
  name := spec.name
  object := spec.object
  provider := spec.provider
  schema := spec.fields.foldl FieldSpec.addTo {}
  fields := spec.fields.map fun f => ⟨f.key, f.path⟩
  relations := spec.relations

/-- The declared model, unless a key is declared twice. -/
def model (spec : ModelSpec) : Except RepeatedKey Model := spec.draft.build

end ModelSpec

/-- Registers declared models one after the other. -/
def Registry.addSpecs (r : Registry) : List ModelSpec → Except RepeatedKey Registry
  | [] => .ok r
  | spec :: specs => do
      let m ← spec.model
      (r.register m).addSpecs specs

namespace Config

/-- The registry of all declared models. -/
def registry (c : Config) : Except RepeatedKey Registry :=
  Registry.empty.addSpecs c.models

end Config

end FilterQuery

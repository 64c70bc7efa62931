import FilterQuery.Codec.Form
import FilterQuery.Config.Basic
import FilterQuery.Toml.Reader

/-!
# The form of a configuration

The records of a configuration and of its parts, and the TOML text of a
configuration.
-/

namespace FilterQuery

open Codec

/-! ## Types and schemas of fields -/

namespace FieldType

def encode (t : FieldType) : Json := .string t.name

def decode (source : Source) (v : Json) : Decoded FieldType := oneOf source named v

end FieldType

namespace FieldSchema

def encode (s : FieldSchema) : Json :=
  .object [("type", s.type.encode), ("required", .bool s.required),
    ("nullable", .bool s.nullable)]

/-- The fields of a field schema that have been read. -/
structure Parts where
  type : Option FieldType := none
  required : Bool := true
  nullable : Bool := false

/-- The record of a field schema. -/
def form : RecordForm Parts where
  name := "FieldSchema"
  fields :=
    [⟨"type", fun v p => (FieldType.decode .json v).map fun x => { p with type := some x }, false⟩,
      ⟨"required", fun v p => (asBool v).map fun x => { p with required := x }, true⟩,
      ⟨"nullable", fun v p => (asBool v).map fun x => { p with nullable := x }, true⟩]
  blank := {}

def decode (v : Json) : Decoded FieldSchema := do
  let p ← form.read .json v
  let type ← demand "type" p.type
  return ⟨type, p.required, p.nullable⟩

end FieldSchema

namespace Schema

def encode (s : Schema) : Json :=
  .object [("fields", .array (s.fields.map fun f => .array [.string f.1, f.2.encode]))]

/-- The record of a schema. -/
def form : RecordForm (Option Schema) where
  name := "Schema"
  fields :=
    [⟨"fields", fun v _ =>
      (asSequence (asPair asText FieldSchema.decode) v).map fun fs => some ⟨fs⟩, false⟩]
  blank := none

def decode (v : Json) : Decoded Schema := do
  let s ← form.read .json v
  demand "fields" s

end Schema

/-! ## Models -/

namespace Provider

def encode (p : Provider) : Json := .string p.name

def decode (source : Source) (v : Json) : Decoded Provider := oneOf source named v

end Provider

namespace FieldSpec

def encode (f : FieldSpec) : Json :=
  .object [("key", .string f.key), ("path", .string f.path),
    ("type", .ofOption FieldType.encode f.type), ("required", .ofOption .bool f.required),
    ("nullable", .ofOption .bool f.nullable)]

/-- The fields of a declaration that have been read. -/
structure Parts where
  key : Option String := none
  path : Option String := none
  type : Option FieldType := none
  required : Option Bool := none
  nullable : Option Bool := none

/-- The record of the declaration of a field. -/
def form (source : Source) : RecordForm Parts where
  name := "FieldSpec"
  fields :=
    [⟨"key", fun v p => (asText v).map fun x => { p with key := some x }, false⟩,
      ⟨"path", fun v p => (asText v).map fun x => { p with path := some x }, false⟩,
      ⟨"type", fun v p =>
        (asOptional (FieldType.decode source) v).map fun x => { p with type := x }, false⟩,
      ⟨"required", fun v p => (asOptional asBool v).map fun x => { p with required := x }, false⟩,
      ⟨"nullable", fun v p => (asOptional asBool v).map fun x => { p with nullable := x }, false⟩]
  blank := {}

def decode (source : Source) (v : Json) : Decoded FieldSpec := do
  let p ← (form source).read source v
  let key ← demand "key" p.key
  let path ← demand "path" p.path
  return ⟨key, path, p.type, p.required, p.nullable⟩

end FieldSpec

namespace Relation

def encode (r : Relation) : Json :=
  .object [("key", .string r.key), ("model", .string r.model),
    ("local_key", .string r.localKey), ("foreign_key", .string r.foreignKey)]

/-- The fields of a relation that have been read. -/
structure Parts where
  key : Option String := none
  model : Option String := none
  localKey : Option String := none
  foreignKey : Option String := none

/-- The record of a relation. -/
def form : RecordForm Parts where
  name := "RelationSpec"
  fields :=
    [⟨"key", fun v p => (asText v).map fun x => { p with key := some x }, false⟩,
      ⟨"model", fun v p => (asText v).map fun x => { p with model := some x }, false⟩,
      ⟨"local_key", fun v p => (asText v).map fun x => { p with localKey := some x }, false⟩,
      ⟨"foreign_key", fun v p => (asText v).map fun x => { p with foreignKey := some x }, false⟩]
  blank := {}

def decode (source : Source) (v : Json) : Decoded Relation := do
  let p ← form.read source v
  let key ← demand "key" p.key
  let model ← demand "model" p.model
  let localKey ← demand "local_key" p.localKey
  let foreignKey ← demand "foreign_key" p.foreignKey
  return ⟨key, model, localKey, foreignKey⟩

end Relation

namespace ModelSpec

def encode (m : ModelSpec) : Json :=
  .object [("name", .string m.name), ("object", .string m.object),
    ("provider", m.provider.encode), ("fields", .array (m.fields.map FieldSpec.encode)),
    ("relations", .array (m.relations.map Relation.encode))]

/-- The fields of a declaration that have been read. -/
structure Parts where
  name : Option String := none
  object : Option String := none
  provider : Option Provider := none
  fields : List FieldSpec := []
  relations : List Relation := []

/-- The record of the declaration of a model. -/
def form (source : Source) : RecordForm Parts where
  name := "ModelSpec"
  fields :=
    [⟨"name", fun v p => (asText v).map fun x => { p with name := some x }, false⟩,
      ⟨"object", fun v p => (asText v).map fun x => { p with object := some x }, false⟩,
      ⟨"provider", fun v p =>
        (Provider.decode source v).map fun x => { p with provider := some x }, false⟩,
      ⟨"fields", fun v p =>
        (asSequence (FieldSpec.decode source) v).map fun x => { p with fields := x }, true⟩,
      ⟨"relations", fun v p =>
        (asSequence (Relation.decode source) v).map fun x => { p with relations := x }, true⟩]
  blank := {}

def decode (source : Source) (v : Json) : Decoded ModelSpec := do
  let p ← (form source).read source v
  let name ← demand "name" p.name
  let object ← demand "object" p.object
  let provider ← demand "provider" p.provider
  return ⟨name, object, provider, p.fields, p.relations⟩

end ModelSpec

/-! ## Providers and the whole configuration -/

namespace SalesforceConfig

def encode (c : SalesforceConfig) : Json :=
  .object [("version", .string c.version), ("provider_name", .string c.providerName)]

/-- The record of the settings, all of which have defaults. -/
def form : RecordForm SalesforceConfig where
  name := "SalesforceConfig"
  fields :=
    [⟨"version", fun v c => (asText v).map fun x => { c with version := x }, true⟩,
      ⟨"provider_name", fun v c => (asText v).map fun x => { c with providerName := x }, true⟩]
  blank := {}

end SalesforceConfig

namespace HubspotConfig

def encode (c : HubspotConfig) : Json :=
  .object [("provider_name", .string c.providerName)]

/-- The record of the settings, all of which have defaults. -/
def form : RecordForm HubspotConfig where
  name := "HubspotConfig"
  fields :=
    [⟨"provider_name", fun v c => (asText v).map fun x => { c with providerName := x }, true⟩]
  blank := {}

end HubspotConfig

namespace Config

def encode (c : Config) : Json :=
  .object [("salesforce", .ofOption SalesforceConfig.encode c.providers.salesforce),
    ("hubspot", .ofOption HubspotConfig.encode c.providers.hubspot),
    ("models", .array (c.models.map ModelSpec.encode))]

/-- The record of a configuration. -/
def form (source : Source) : RecordForm Config where
  name := "ConfigFile"
  fields :=
    [⟨"salesforce", fun v c =>
        (asOptional (SalesforceConfig.form.read source) v).map fun x =>
          { c with providers := { c.providers with salesforce := x } }, false⟩,
      ⟨"hubspot", fun v c =>
        (asOptional (HubspotConfig.form.read source) v).map fun x =>
          { c with providers := { c.providers with hubspot := x } }, false⟩,
      ⟨"models", fun v c =>
        (asSequence (ModelSpec.decode source) v).map fun x => { c with models := x }, true⟩]
  blank := {}

def decode (source : Source) (v : Json) : Decoded Config := (form source).read source v

end Config

/-! ## TOML -/

namespace Toml

mutual

/-- A TOML value as JSON, as far as a configuration needs it: no setting is a float
or a date, so that a float is any number that is no integer, and a date is a
table with one entry, under a name that no record has. -/
def toJson : Toml → Json
  | .string s => .string s
  | .integer n => .ofInt n
  | .float => .ofDouble (Double.ofDecimal false ⟨5, -1⟩)
  | .boolean b => .bool b
  | .dateTime => .object [("", .null)]
  | .array items => .array (itemsToJson items)
  | .inline _ es => .object (entriesToJson es)
  | .table _ es => .object (entriesToJson es)
  | .tables ts => .array (tablesToJson ts)

def itemsToJson : List Toml → List Json
  | [] => []
  | v :: vs => toJson v :: itemsToJson vs

def entriesToJson : List (String × Toml) → List (String × Json)
  | [] => []
  | (k, v) :: es => (k, toJson v) :: entriesToJson es

def tablesToJson : List (TableOrigin × List (String × Toml)) → List Json
  | [] => []
  | (_, es) :: ts => .object (entriesToJson es) :: tablesToJson ts

end

end Toml

namespace Config

/-- The configuration that a TOML text holds. -/
def ofToml? (text : String) : Option Config :=
  match Toml.read? text with
  | none => none
  | some es => (decode .toml (.object (Toml.entriesToJson es))).toOption

/-- The configuration that a text holds. -/
def parse (text : String) : Outcome Config :=
  match ofToml? text with
  | some c => .ok c
  | none => .error (.config (.malformed none))

/-- The configuration in a file. `read` gives the text of a file, or the reason why
there is none. -/
def load (read : String → Except String String) (path : String) : Outcome Config :=
  match read path with
  | .error reason => .error (.config (.unreadable path reason))
  | .ok text =>
      match ofToml? text with
      | some c => .ok c
      | none => .error (.config (.malformed (some path)))

/-- The registry of the models of a configuration. -/
def toRegistry (c : Config) : Outcome Registry :=
  c.registry.mapError fun e => .config (.repeatedKey e)

end Config

end FilterQuery

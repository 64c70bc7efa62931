import FilterQuery.Config.Basic
import FilterQuery.Proofs.Model.Registered
import FilterQuery.Proofs.Result
import FilterQuery.Proofs.Schema.Declared

/-!
# Models of a configuration

A declaration gives a model just if no key is declared twice, and the model says what
the declaration says. Main statement: a configuration gives a registry just if each of
its declarations gives a model, and the registry is the one after these models have been
registered in their order.
-/

namespace FilterQuery

/-! ## Drafts -/

variable {seen keys : List String}

theorem firstRepeat?_eq_none_iff :
    firstRepeat? seen keys = none ↔ keys.Nodup ∧ ∀ k ∈ keys, k ∉ seen := by
  refine ⟨nodup_of_firstRepeat?_eq_none, ?_⟩
  induction keys generalizing seen with
  | nil => exact fun _ => rfl
  | cons k keys ih =>
    rintro ⟨distinct, unseen⟩
    obtain ⟨fresh, distinct⟩ := List.nodup_cons.1 distinct
    obtain ⟨new, unseen⟩ := List.forall_mem_cons.1 unseen
    rw [firstRepeat?, if_neg new]
    refine ih ⟨distinct, fun other later => ?_⟩
    rw [List.mem_cons, not_or]
    exact ⟨fun same => fresh (same ▸ later), unseen other later⟩

namespace Draft

variable {d : Draft} {m : Model}

/-- A draft becomes the model that it is a draft of. -/
theorem build_eq_ok_iff : d.build = .ok m ↔ m.toDraft = d := by
  unfold build
  split
  · constructor
    · rintro ⟨⟩
      rfl
    · rintro rfl
      rfl
  · next repeated =>
    refine ⟨nofun, ?_⟩
    rintro rfl
    -- the keys of a model are distinct
    have none : firstRepeat? [] (m.fields.map Field.key) = none :=
      firstRepeat?_eq_none_iff.2 ⟨m.distinct, fun _ _ => List.not_mem_nil⟩
    rw [none] at repeated
    contradiction

theorem exists_build_eq_ok_iff : (∃ m, d.build = .ok m) ↔ (d.fields.map Field.key).Nodup := by
  constructor
  · rintro ⟨m, built⟩
    rw [← build_eq_ok_iff.1 built]
    exact m.distinct
  · intro distinct
    exact ⟨⟨d, distinct⟩, build_eq_ok_iff.2 rfl⟩

end Draft

/-! ## Schemas of declarations -/

namespace FieldSpec

/-- The entry of a schema that a declaration with a type gives: required and not nullable
unless it says otherwise. -/
def entry? (f : FieldSpec) : Option (String × FieldSchema) :=
  f.type.map fun type => (f.key, ⟨type, f.required.getD true, f.nullable.getD false⟩)

variable {f : FieldSpec} {fields : List FieldSpec} {schema : Schema}

theorem entry?_eq (f : FieldSpec) : f.entry? = f.schema?.map fun s => (f.key, s) := by
  rw [schema?, Option.map_map]
  rfl

/-- A declaration under a new key adds its entry, if it has one. -/
theorem fields_addTo (h : f.key ∉ schema.fields.map Prod.fst) :
    (addTo schema f).fields = schema.fields ++ f.entry?.toList := by
  rw [addTo, entry?_eq]
  cases f.schema? with
  | none => exact (List.append_nil _).symm
  | some s => exact Schema.setEntry_of_notMem h

theorem fields_foldl_addTo (distinct : (fields.map key).Nodup)
    (fresh : ∀ f ∈ fields, f.key ∉ schema.fields.map Prod.fst) :
    (fields.foldl addTo schema).fields = schema.fields ++ fields.filterMap entry? := by
  induction fields generalizing schema with
  | nil => exact (List.append_nil _).symm
  | cons f fields ih =>
    obtain ⟨once, distinct⟩ := List.nodup_cons.1 distinct
    obtain ⟨here, fresh⟩ := List.forall_mem_cons.1 fresh
    have added := fields_addTo here
    rw [List.foldl_cons, ih distinct, added, List.append_assoc, List.filterMap_cons]
    · cases f.entry? <;> rfl
    · -- an entry that has been added stands under a key that does not occur again
      intro g later listed
      rw [added, List.map_append, List.mem_append] at listed
      rcases listed with old | new
      · exact fresh g later old
      · obtain ⟨entry, given, same⟩ := List.mem_map.1 new
        rw [Option.mem_toList, entry?, Option.map_eq_some_iff] at given
        obtain ⟨_, _, rfl⟩ := given
        exact once (List.mem_map.2 ⟨g, later, same.symm⟩)

end FieldSpec

/-! ## Declarations -/

namespace ModelSpec

/-- A model says what a declaration says: its fields are those that are declared, in their
order, and its schema has an entry for those that give a type. -/
structure Declares (spec : ModelSpec) (m : Model) : Prop where
  name : m.name = spec.name
  object : m.object = spec.object
  provider : m.provider = spec.provider
  fields : m.fields = spec.fields.map fun f => ⟨f.key, f.path⟩
  relations : m.relations = spec.relations
  schema : m.schema.fields = spec.fields.filterMap FieldSpec.entry?

variable {spec : ModelSpec} {m : Model}

theorem map_key_fields_draft (spec : ModelSpec) :
    spec.draft.fields.map Field.key = spec.fields.map FieldSpec.key := by
  rw [draft, List.map_map]
  rfl

theorem exists_model_eq_ok_iff :
    (∃ m, spec.model = .ok m) ↔ (spec.fields.map FieldSpec.key).Nodup := by
  rw [model, Draft.exists_build_eq_ok_iff, map_key_fields_draft]

theorem fields_schema_draft (distinct : (spec.fields.map FieldSpec.key).Nodup) :
    spec.draft.schema.fields = spec.fields.filterMap FieldSpec.entry? :=
  FieldSpec.fields_foldl_addTo distinct fun _ _ => List.not_mem_nil

/-- A declaration gives the one model that says what it says. -/
theorem model_eq_ok_iff : spec.model = .ok m ↔ spec.Declares m := by
  rw [model, Draft.build_eq_ok_iff]
  constructor
  · intro same
    have distinct := m.distinct
    rw [same, map_key_fields_draft] at distinct
    exact {
      name := congrArg Draft.name same
      object := congrArg Draft.object same
      provider := congrArg Draft.provider same
      fields := congrArg Draft.fields same
      relations := congrArg Draft.relations same
      schema := (congrArg (fun d => d.schema.fields) same).trans (fields_schema_draft distinct) }
  · rintro ⟨name, object, provider, fields, relations, schema⟩
    have distinct : (spec.fields.map FieldSpec.key).Nodup := by
      have once := m.distinct
      rwa [fields, List.map_map] at once
    rw [← fields_schema_draft distinct] at schema
    obtain ⟨⟨_, _, _, ⟨_⟩, _, _⟩, _⟩ := m
    simp only at name object provider fields relations schema
    subst name object provider fields relations schema
    rfl

end ModelSpec

/-! ## Configurations -/

/-- Declarations are registered in their order, or one of them gives no model. -/
theorem Registry.addSpecs_eq_ok_iff {r r' : Registry} {specs : List ModelSpec} :
    r.addSpecs specs = .ok r' ↔
      ∃ ms, List.Forall₂ ModelSpec.Declares specs ms ∧ r' = ms.foldl register r := by
  induction specs generalizing r with
  | nil =>
    rw [addSpecs]
    constructor
    · rintro ⟨⟩
      exact ⟨[], .nil, rfl⟩
    · rintro ⟨_, ⟨⟩, rfl⟩
      rfl
  | cons spec specs ih =>
    rw [addSpecs, bind_eq_ok_iff]
    constructor
    · rintro ⟨m, built, rest⟩
      obtain ⟨ms, declared, rfl⟩ := ih.1 rest
      exact ⟨m :: ms, .cons (ModelSpec.model_eq_ok_iff.1 built) declared, rfl⟩
    · rintro ⟨_, declared, rfl⟩
      obtain _ | ⟨here, others⟩ := declared
      exact ⟨_, ModelSpec.model_eq_ok_iff.2 here, ih.2 ⟨_, others, rfl⟩⟩

/-- No declaration is passed over, not even one whose name is declared again. -/
theorem Registry.exists_addSpecs_eq_ok_iff {r : Registry} {specs : List ModelSpec} :
    (∃ r', r.addSpecs specs = .ok r') ↔
      ∀ spec ∈ specs, (spec.fields.map FieldSpec.key).Nodup := by
  induction specs generalizing r with
  | nil => simp [addSpecs]
  | cons spec specs ih =>
    rw [List.forall_mem_cons, ← ModelSpec.exists_model_eq_ok_iff]
    simp only [addSpecs, bind_eq_ok_iff]
    constructor
    · rintro ⟨r', m, built, rest⟩
      exact ⟨⟨m, built⟩, ih.1 ⟨r', rest⟩⟩
    · rintro ⟨⟨m, built⟩, others⟩
      obtain ⟨r', rest⟩ := ih.2 others
      exact ⟨r', m, built, rest⟩

namespace Config

/-- After any models have been registered one after the other, the two halves of the
registry agree and hold the last model of each name, in the order in which the names came
first. A configuration gives a registry just if no declaration declares a key twice, and it
is the one after the declared models have been registered in their order. -/
theorem holds_registry (ms : List Model) (c : Config) :
    (Registry.ofModels ms).Holds ms ∧
      ((∃ r, c.registry = .ok r) ↔ ∀ spec ∈ c.models, (spec.fields.map FieldSpec.key).Nodup) ∧
      ∀ r, c.registry = .ok r ↔
        ∃ ms, List.Forall₂ ModelSpec.Declares c.models ms ∧ r = .ofModels ms :=
  ⟨Registry.holds_ofModels ms, Registry.exists_addSpecs_eq_ok_iff,
    fun _ => Registry.addSpecs_eq_ok_iff⟩

/-- A declaration of deals as an object with some fields. -/
def dealSpec (object : String) (fields : List FieldSpec) : ModelSpec :=
  ⟨"Deal", object, .salesforce, fields, []⟩

/-- Deals, accounts, and deals again, now as another object. -/
def redeclared (fields : List FieldSpec) : Config where
  models := [dealSpec "Opportunity" fields, ⟨"Account", "Account", .salesforce, [], []⟩,
    dealSpec "Order"
      [⟨"id", "Id", some .string, some false, none⟩, ⟨"name", "Name", none, none, none⟩]]

/-- Deals keep their place and become the later ones; a key that the earlier declaration
repeats fails the whole configuration all the same. -/
theorem holds_registry_redeclared :
    (∃ r deal, (redeclared []).registry = .ok r ∧ r.names = ["Deal", "Account"] ∧
      r.get? "Deal" = some deal ∧ deal.object = "Order" ∧
        deal.schema.fields = [("id", ⟨.string, false, false⟩)]) ∧
      ¬ ∃ r, (redeclared
        [⟨"id", "Id", none, none, none⟩, ⟨"id", "Name", none, none, none⟩]).registry = .ok r := by
  obtain ⟨_, succeeds, models⟩ := holds_registry [] (redeclared [])
  obtain ⟨r, loaded⟩ := succeeds.2 (by decide)
  obtain ⟨ms, declared, rfl⟩ := (models r).1 loaded
  obtain _ | ⟨first, declared⟩ := declared
  obtain _ | ⟨second, declared⟩ := declared
  obtain _ | ⟨third, declared⟩ := declared
  obtain _ | _ := declared
  rename_i opportunity account order
  obtain ⟨holds, _, _⟩ := holds_registry [opportunity, account, order] (redeclared [])
  refine ⟨⟨_, order, loaded, ?_, ?_, third.object, third.schema⟩, fun loaded => ?_⟩
  · rw [Registry.names, holds.names]
    simp only [List.map_cons, List.map_nil, first.name, second.name, third.name]
    rfl
  · exact (holds.found _ _).2 ⟨[opportunity, account], [], rfl, third.name, nofun⟩
  · exact absurd ((holds_registry [] _).2.1.1 loaded) (by decide)

end Config

end FilterQuery

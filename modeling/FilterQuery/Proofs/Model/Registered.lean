import FilterQuery.Model.Registry
import FilterQuery.Proofs.Keyed

/-!
# Registries over a run

What a registry holds after models have been registered one after the other. One
registration keeps the two halves of a registry in step. Main statement: over a run, the
names stand in the order of their first registration, and each has the model that was
registered last under it.
-/

namespace FilterQuery

/-- The first relation of a model under a key. -/
def Model.IsFirstRelation (m : Model) (key : String) (rel : Relation) : Prop :=
  ∃ before after, m.relations = before ++ rel :: after ∧ rel.key = key ∧
    ∀ other ∈ before, other.key ≠ key

theorem Model.relation?_eq_some_iff {m : Model} {key : String} {rel : Relation} :
    m.relation? key = some rel ↔ m.IsFirstRelation key rel := by
  rw [relation?, List.find?_eq_some_iff_append]
  simp only [decide_eq_true_eq, Bool.not_eq_true', decide_eq_false_iff_not]
  constructor
  · rintro ⟨here, before, after, split, others⟩
    exact ⟨before, after, split, here, others⟩
  · rintro ⟨before, after, split, here, others⟩
    exact ⟨here, before, after, split, others⟩

namespace Registry

/-- The names in order are the names of the map, each once, and every model is kept under
its own name. -/
structure IsCoherent (r : Registry) : Prop where
  nodup : r.order.Nodup
  mem_order_iff : ∀ name, name ∈ r.order ↔ name ∈ r.byName
  name_eq : ∀ name m, r.get? name = some m → m.name = name

/-- The registry after models have been registered one after the other. -/
def ofModels (ms : List Model) : Registry := ms.foldl register empty

variable {r : Registry} {ms : List Model} {m target : Model} {name key : String}

@[simp]
theorem ofModels_concat (ms : List Model) (m : Model) :
    ofModels (ms ++ [m]) = (ofModels ms).register m := by
  rw [ofModels, List.foldl_append]
  rfl

/-! ## One registration -/

@[simp, grind =]
theorem get?_register (r : Registry) (m : Model) (name : String) :
    (r.register m).get? name = if m.name = name then some m else r.get? name := by
  simp [get?, register, Std.HashMap.getElem?_insert]

theorem mem_byName_iff : name ∈ r.byName ↔ ∃ m, r.get? name = some m := by
  rw [Std.HashMap.mem_iff_isSome_getElem?, Option.isSome_iff_exists]
  rfl

theorem isCoherent_empty : empty.IsCoherent where
  nodup := List.nodup_nil
  mem_order_iff name := by simp [empty]
  name_eq name m h := by simp [empty, get?] at h

namespace IsCoherent

/-- A name that is new goes to the end of the order, the others stay where they are. -/
theorem order_register (h : r.IsCoherent) (m : Model) :
    (r.register m).order = if m.name ∈ r.order then r.order else r.order ++ [m.name] := by
  rw [register]
  refine if_congr ?_ rfl rfl
  rw [Std.HashMap.contains_iff_mem, h.mem_order_iff]

theorem register (h : r.IsCoherent) (m : Model) : (r.register m).IsCoherent where
  nodup := by
    rw [h.order_register]
    split
    · exact h.nodup
    · next fresh =>
      rw [← List.concat_eq_append]
      exact h.nodup.concat fresh
  mem_order_iff name := by
    have kept : name ∈ (r.register m).byName ↔ m.name = name ∨ name ∈ r.byName := by
      rw [Registry.register, Std.HashMap.mem_insert, beq_iff_eq]
    rw [kept, ← h.mem_order_iff, h.order_register]
    split
    · next known =>
      refine ⟨.inr, ?_⟩
      rintro (rfl | listed)
      · exact known
      · exact listed
    · rw [List.mem_append, List.mem_singleton, or_comm, eq_comm]
  name_eq name m' found := by
    rw [get?_register] at found
    split at found
    · next same =>
      obtain rfl := Option.some.inj found
      exact same
    · exact h.name_eq name m' found

/-! ## Listing -/

theorem map_name_filterMap_get? (h : r.IsCoherent) {names : List String}
    (listed : ∀ name ∈ names, name ∈ r.order) :
    (names.filterMap r.get?).map (fun m => m.name) = names := by
  induction names with
  | nil => rfl
  | cons name names ih =>
    obtain ⟨here, others⟩ := List.forall_mem_cons.1 listed
    obtain ⟨m, found⟩ := mem_byName_iff.1 ((h.mem_order_iff name).1 here)
    rw [List.filterMap_cons_some found, List.map_cons, h.name_eq name m found, ih others]

/-- Every name in order has its model in the list. -/
theorem names_eq (h : r.IsCoherent) : r.names = r.order :=
  h.map_name_filterMap_get? fun _ listed => listed

theorem get?_of_mem_models (h : r.IsCoherent) (listed : m ∈ r.models) :
    r.get? m.name = some m := by
  obtain ⟨name, _, found⟩ := List.mem_filterMap.1 listed
  rw [h.name_eq name m found, found]

/-- As many models are listed as the map holds. -/
theorem length_models (h : r.IsCoherent) : r.models.length = r.size := by
  have same : r.order.Perm r.byName.keys := by
    refine (List.perm_ext_iff_of_nodup h.nodup Std.HashMap.nodup_keys).2 fun name => ?_
    rw [h.mem_order_iff, Std.HashMap.mem_keys]
  calc
    r.models.length = r.names.length := (List.length_map _).symm
    _ = r.order.length := by rw [h.names_eq]
    _ = r.byName.keys.length := same.length_eq
    _ = r.size := Std.HashMap.length_keys

end IsCoherent

/-! ## Runs -/

theorem isCoherent_ofModels (ms : List Model) : (ofModels ms).IsCoherent := by
  induction ms using List.reverseRecOn with
  | nil => exact isCoherent_empty
  | append_singleton ms m ih =>
    rw [ofModels_concat]
    exact ih.register m

/-- The names stand in the order in which they first occur. -/
theorem order_ofModels (ms : List Model) :
    (ofModels ms).order = (ms.map fun m => m.name).eraseDups := by
  induction ms using List.reverseRecOn with
  | nil => rfl
  | append_singleton ms m ih =>
    rw [ofModels_concat, (isCoherent_ofModels ms).order_register, ih, List.map_append,
      List.map_singleton, eraseDups_concat]
    exact if_congr List.mem_eraseDups rfl rfl

theorem get?_ofModels (ms : List Model) (name : String) :
    (ofModels ms).get? name = ms.reverse.find? fun m => m.name = name := by
  induction ms using List.reverseRecOn with
  | nil => simp [ofModels, empty, get?]
  | append_singleton ms m ih =>
    rw [ofModels_concat, get?_register, ih, List.reverse_append, List.reverse_singleton,
      List.singleton_append, List.find?_cons]
    by_cases here : m.name = name <;> simp [here]

/-- A model is the one that was registered last under a name. -/
def IsLatest (ms : List Model) (name : String) (m : Model) : Prop :=
  ∃ before after, ms = before ++ m :: after ∧ m.name = name ∧ ∀ other ∈ after, other.name ≠ name

theorem get?_ofModels_eq_some_iff : (ofModels ms).get? name = some m ↔ IsLatest ms name m := by
  rw [get?_ofModels, List.find?_eq_some_iff_append]
  simp only [decide_eq_true_eq, Bool.not_eq_true', decide_eq_false_iff_not]
  constructor
  · rintro ⟨here, after, before, split, others⟩
    refine ⟨before.reverse, after.reverse, ?_, here, fun x hx => others x (List.mem_reverse.1 hx)⟩
    rw [← List.reverse_reverse ms, split]
    simp
  · rintro ⟨before, after, rfl, here, others⟩
    refine ⟨here, after.reverse, before.reverse, by simp, fun x hx => ?_⟩
    exact others x (List.mem_reverse.1 hx)

theorem get?_ofModels_eq_none_iff :
    (ofModels ms).get? name = none ↔ ∀ m ∈ ms, m.name ≠ name := by
  rw [get?_ofModels, List.find?_eq_none]
  simp

/-- What a registry holds once `ms` have been registered one after the other. -/
structure Holds (r : Registry) (ms : List Model) : Prop where
  coherent : r.IsCoherent
  found : ∀ name m, r.get? name = some m ↔ IsLatest ms name m
  missing : ∀ name, r.get? name = none ↔ ∀ m ∈ ms, m.name ≠ name
  length : r.models.length = r.size
  names : r.models.map (fun m => m.name) = (ms.map fun m => m.name).eraseDups
  latest : ∀ m ∈ r.models, IsLatest ms m.name m
  related : ∀ m key target, r.related? m key = some target ↔
    ∃ rel, m.IsFirstRelation key rel ∧ IsLatest ms rel.model target

theorem holds_ofModels (ms : List Model) : (ofModels ms).Holds ms where
  coherent := isCoherent_ofModels ms
  found _ _ := get?_ofModels_eq_some_iff
  missing _ := get?_ofModels_eq_none_iff
  length := (isCoherent_ofModels ms).length_models
  names := by
    rw [← order_ofModels]
    exact (isCoherent_ofModels ms).names_eq
  latest _ listed :=
    get?_ofModels_eq_some_iff.1 ((isCoherent_ofModels ms).get?_of_mem_models listed)
  related m key target := by
    rw [related?, Option.bind_eq_some_iff]
    simp only [Model.relation?_eq_some_iff, get?_ofModels_eq_some_iff]

end Registry

end FilterQuery

import FilterQuery.Proofs.Query.Keys

/-!
# The keys of a descriptor

A descriptor asks for keys that its model declares and perhaps for others. Main
statement: the declared ones come first, each once and in the order of the model, and are
those that some entry of the selection includes; the others follow in the order of the
selection.
-/

namespace FilterQuery.Select

/-- Whether a key is asked for: some entry of the selection includes it. Without a selection
every key is. -/
def AsksFor (s : Select) (key : String) : Prop :=
  ∀ sel, s.selection = some sel → (key, true) ∈ sel.entries

/-- The keys of a descriptor that its model declares. -/
def declaredKeys (s : Select) : List String :=
  s.projectedKeys.filter s.model.declares

/-- The keys that the selection includes and the model does not declare, in the order of the
selection. -/
def foreignKeys (s : Select) : List String :=
  s.selection.elim [] fun sel => sel.entries.filterMap fun e =>
    if e.2 = true ∧ s.model.declares e.1 = false then some e.1 else none

variable {s : Select} {sel : Selection} {key : String}

theorem includes_iff : sel.includes key = true ↔ (key, true) ∈ sel.entries := by
  simp [Selection.includes]

theorem asksFor_of_selection_eq_none (h : s.selection = none) : s.AsksFor key := by
  intro sel given
  rw [h] at given
  contradiction

theorem asksFor_iff (h : s.selection = some sel) : s.AsksFor key ↔ (key, true) ∈ sel.entries := by
  rw [AsksFor, h]
  exact ⟨fun all => all sel rfl, fun listed _ same => Option.some.inj same ▸ listed⟩

@[simp]
theorem filter_declares_keys (m : Model) : m.keys.filter m.declares = m.keys :=
  List.filter_eq_self.2 fun _ listed => Model.mem_keys_iff.1 listed

/-- The included keys that are not declared, one entry after the other. -/
theorem filter_includedKeys (m : Model) (sel : Selection) :
    (sel.includedKeys.filter fun k => !m.declares k) =
      sel.entries.filterMap fun e =>
        if e.2 = true ∧ m.declares e.1 = false then some e.1 else none := by
  rw [Selection.includedKeys]
  induction sel.entries with
  | nil => rfl
  | cons e entries ih =>
    obtain ⟨k, included⟩ := e
    cases included <;> cases declared : m.declares k <;> simp [declared, ih]

/-- The declared keys are those that are asked for, in the order of the model. -/
theorem declaredKeys_eq (s : Select) :
    s.declaredKeys = s.selection.elim s.model.keys fun sel => s.model.keys.filter sel.includes := by
  unfold declaredKeys projectedKeys
  cases s.selection with
  | none => exact filter_declares_keys s.model
  | some sel =>
    have own : (s.model.keys.filter sel.includes).filter s.model.declares =
        s.model.keys.filter sel.includes :=
      List.filter_eq_self.2 fun _ listed => Model.mem_keys_iff.1 (List.mem_filter.1 listed).1
    have others : (sel.includedKeys.filter fun k => !s.model.declares k).filter
        s.model.declares = [] := by
      simp [List.filter_filter]
    simp [own]

theorem projectedKeys_eq (s : Select) : s.projectedKeys = s.declaredKeys ++ s.foreignKeys := by
  rw [declaredKeys_eq]
  unfold projectedKeys foreignKeys
  cases s.selection with
  | none => exact (List.append_nil _).symm
  | some sel => simp only [filter_includedKeys, Option.elim_some]

theorem declaredKeys_sublist (s : Select) : s.declaredKeys.Sublist s.model.keys := by
  rw [declaredKeys_eq]
  cases s.selection with
  | none => exact List.Sublist.refl _
  | some sel => exact List.filter_sublist

theorem nodup_declaredKeys (s : Select) : s.declaredKeys.Nodup :=
  s.model.distinct.sublist s.declaredKeys_sublist

theorem mem_declaredKeys_iff :
    key ∈ s.declaredKeys ↔ s.model.declares key = true ∧ s.AsksFor key := by
  rw [declaredKeys_eq, ← Model.mem_keys_iff]
  cases given : s.selection with
  | none => simp [asksFor_of_selection_eq_none given]
  | some sel => simp [asksFor_iff given, includes_iff]

/-- The path of a declared key stands among the columns. -/
theorem pathFor_mem_projection (h : key ∈ s.declaredKeys) :
    s.model.pathFor key ∈ s.projection := by
  have listed : key ∈ s.projectedKeys := (List.mem_filter.1 h).1
  rcases s.projection_eq with ⟨none, _⟩ | columns
  · rw [none] at listed
    contradiction
  · rw [columns]
    exact List.mem_map_of_mem listed

end FilterQuery.Select

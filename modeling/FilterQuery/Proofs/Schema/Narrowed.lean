import FilterQuery.Proofs.Query.Row
import FilterQuery.Proofs.Schema.Check
import FilterQuery.Session

/-!
# Selecting fewer fields

A row gives a record for any list of keys: it is mapped to these keys and validated
against the part of the schema that declares them. Main statement: a list that asks
for fewer keys never breaks a record and never changes a value, and its issues are
those of the longer list on the keys that are left.
-/

namespace FilterQuery

namespace Schema

/-- The same validation over fewer keys: on those that are kept the records agree, and
the issues are those on the kept keys. -/
structure Narrows (kept : String → Bool) (wide narrow : Progress) : Prop where
  values : ∀ k, narrow.record.get? k = if kept k then wide.record.get? k else none
  issues : narrow.issues = wide.issues.filter fun issue => kept issue.field

variable {kept : String → Bool} {wide narrow : Progress} {field : String × FieldSchema}

/-- The check of a field that is kept is made by both. -/
theorem Narrows.check_kept (h : Narrows kept wide narrow) (here : kept field.1 = true) :
    Narrows kept (check wide field) (check narrow field) where
  values k := by
    rw [get?_check, get?_check, h.values]
    by_cases left : kept k = true
    · simp [left]
    · have ne : field.1 ≠ k := fun same => left (same ▸ here)
      simp [left, ne]
  issues := by
    have ofField : (field.2.issues field.1 (wide.record.get? field.1)).filter
        (fun issue => kept issue.field) = field.2.issues field.1 (wide.record.get? field.1) :=
      List.filter_eq_self.2 fun issue mem =>
        (FieldSchema.field_of_mem_issues mem).symm ▸ here
    rw [issues_check, issues_check, List.filter_append, ← h.issues, ofField, h.values,
      if_pos here]

/-- The check of a field that is not kept leaves no trace on the kept ones. -/
theorem Narrows.check_dropped (h : Narrows kept wide narrow) (gone : ¬ kept field.1 = true) :
    Narrows kept (check wide field) narrow where
  values k := by
    rw [get?_check, h.values]
    by_cases left : kept k = true
    · have ne : field.1 ≠ k := fun same => gone (same ▸ left)
      simp [left, ne]
    · simp [left]
  issues := by
    have ofField : (field.2.issues field.1 (wide.record.get? field.1)).filter
        (fun issue => kept issue.field) = [] :=
      List.filter_eq_nil_iff.2 fun issue mem =>
        (FieldSchema.field_of_mem_issues mem).symm ▸ gone
    rw [issues_check, List.filter_append, ofField, List.append_nil, h.issues]

/-- A run over the kept fields narrows the run over all. -/
theorem Narrows.foldl (h : Narrows kept wide narrow) (fields : List (String × FieldSchema)) :
    Narrows kept (fields.foldl check wide)
      ((fields.filter fun field => kept field.1).foldl check narrow) := by
  induction fields generalizing wide narrow with
  | nil => exact h
  | cons field fields ih =>
    rw [List.filter_cons, List.foldl_cons]
    by_cases here : kept field.1 = true
    · rw [if_pos here, List.foldl_cons]
      exact ih (h.check_kept here)
    · rw [if_neg here]
      exact ih (h.check_dropped here)

/-- The part for fewer keys is a part of the part for more. -/
theorem fields_project_of_subset (schema : Schema) {K K' : List String} (h : K ⊆ K') :
    (schema.project K).fields = (schema.project K').fields.filter fun field => field.1 ∈ K := by
  rw [project, project, List.filter_filter]
  refine List.filter_congr fun field _ => ?_
  by_cases here : field.1 ∈ K <;> simp [here, @h field.1]

end Schema

/-- The issues that an outcome reports. -/
def Invalid.reported : Except Invalid Record → List Issue
  | .ok _ => []
  | .error e => e.issues

namespace Model

/-- The record of a row for some keys. -/
def reconcile (m : Model) (keys : List String) (row : Json) (index : Nat) :
    Except Invalid Record :=
  (m.schema.project keys).validate (m.mapRow keys row) index

/-- The record that a query makes of a row is that for the keys of its result. -/
theorem reconcile_resultKeys (q : Query) (row : Json) (index : Nat) :
    q.model.reconcile q.resultKeys row index = q.reconcile index row := rfl

/-- The record of a row for some keys, after the check of every field. -/
def progress (m : Model) (keys : List String) (row : Json) : Schema.Progress :=
  (m.schema.project keys).progress (m.mapRow keys row)

variable {m : Model} {row : Json} {index : Nat} {K K' : List String}

theorem reconcile_eq_ok_iff {r : Record} :
    m.reconcile K row index = .ok r ↔
      (m.progress K row).issues = [] ∧ (m.progress K row).record = r :=
  Schema.validate_eq_ok_iff

theorem reported_reconcile :
    Invalid.reported (m.reconcile K row index) = (m.progress K row).issues := by
  rw [reconcile, Schema.validate_eq, ← progress]
  split
  · next sound => exact sound.symm
  · rfl

theorem nodup_keys_progress : (m.progress K row).record.keys.Nodup := by
  rw [progress, Schema.progress, Schema.keys_foldl_check]
  exact nodup_keys_mapRow m row K

theorem narrows_mapRow (h : K ⊆ K') :
    Schema.Narrows (· ∈ K) { record := m.mapRow K' row } { record := m.mapRow K row } where
  values k := by
    rw [get?_mapRow, get?_mapRow]
    by_cases here : k ∈ K <;> simp [here, @h k]
  issues := rfl

theorem narrows_progress (h : K ⊆ K') :
    Schema.Narrows (· ∈ K) (m.progress K' row) (m.progress K row) := by
  rw [progress, progress, Schema.progress, Schema.progress,
    Schema.fields_project_of_subset m.schema h]
  exact (narrows_mapRow h).foldl _

/-- The value that a record keeps under a key is that for the key alone. -/
theorem get?_of_reconcile_eq_ok {r : Record} {k : String}
    (h : m.reconcile K row index = .ok r) (mem : k ∈ K) :
    r.get? k = (m.progress [k] row).record.get? k := by
  have here : [k] ⊆ K := List.cons_subset.2 ⟨mem, List.nil_subset K⟩
  rw [(narrows_progress here).values, (reconcile_eq_ok_iff.1 h).2]
  simp

/-- Asking for fewer keys never breaks a record and never changes a value. If the row
gives a record for the longer list, it gives one for the shorter, with exactly the
members whose keys are left; whether it does or not, the issues are those on the keys
that are left, in the same order. A value does not depend on the other keys. -/
theorem reconcile_subset (m : Model) (row : Json) (index : Nat) {K K' : List String}
    (h : K ⊆ K') :
    (∀ wide, m.reconcile K' row index = .ok wide →
      ∃ narrow, m.reconcile K row index = .ok narrow ∧ narrow.keys.Nodup ∧
        narrow.Perm (wide.filter fun member => member.1 ∈ K)) ∧
    Invalid.reported (m.reconcile K row index) =
      (Invalid.reported (m.reconcile K' row index)).filter (fun issue => issue.field ∈ K) ∧
    ∀ other r r', m.reconcile K row index = .ok r → m.reconcile other row index = .ok r' →
      ∀ k ∈ K, k ∈ other → r.get? k = r'.get? k := by
  have narrows : Schema.Narrows (· ∈ K) (m.progress K' row) (m.progress K row) :=
    narrows_progress h
  refine ⟨?_, ?_, ?_⟩
  · intro wide fits
    obtain ⟨sound, rfl⟩ := reconcile_eq_ok_iff.1 fits
    have sound' : (m.progress K row).issues = [] := by
      rw [narrows.issues, sound, List.filter_nil]
    refine ⟨_, reconcile_eq_ok_iff.2 ⟨sound', rfl⟩, nodup_keys_progress, ?_⟩
    refine Members.perm_of_get?_eq nodup_keys_progress ?_ fun k => ?_
    · exact nodup_keys_progress.sublist (List.filter_sublist.map _)
    · rw [narrows.values, Members.get?_filter (· ∈ K)]
  · rw [reported_reconcile, reported_reconcile, narrows.issues]
  · intro other r r' fits fits' k mem mem'
    rw [get?_of_reconcile_eq_ok fits mem, get?_of_reconcile_eq_ok fits' mem']

/-- Deals with their owners. The amount is required, the stage has no schema. -/
def owned : Model where
  name := "Deal"
  object := "Opportunity"
  provider := .salesforce
  schema := ⟨[("id", { type := .string }), ("amount", { type := .integer }),
    ("closed", { type := .date }), ("owner", { type := .string, nullable := true })]⟩
  fields := [⟨"id", "Id"⟩, ⟨"stage", "StageName"⟩, ⟨"owner", "Owner__r.Name"⟩,
    ⟨"amount", "Amount"⟩, ⟨"closed", "CloseDate"⟩]
  distinct := by decide

/-- A row without an amount, whose date has another form than records have. -/
def ownedRow : Json :=
  .object [("Id", .string "1"), ("StageName", .bool true), ("CloseDate", .string "2024-3-9"),
    ("Owner", .object [("Name", .string "Ada")])]

theorem reconcile_subset_owned :
    let narrow := ["closed", "ghost", "stage", "closed"]
    let wide := ["stage", "owner", "closed", "ghost", "stage"]
    narrow ⊆ wide ∧ wide ⊆ "amount" :: wide ∧
      Invalid.reported (owned.reconcile ("amount" :: wide) ownedRow 0) = [⟨"amount", .required⟩] ∧
      Invalid.reported (owned.reconcile wide ownedRow 0) = [] ∧
      ∃ r, owned.reconcile narrow ownedRow 0 = .ok r ∧
        r.Perm [("stage", .bool true), ("closed", .string "2024-03-09")] := by
  intro narrow wide
  have sub : narrow ⊆ wide := by decide
  obtain ⟨fits, _, _⟩ := reconcile_subset owned ownedRow 0 sub
  obtain ⟨_, issues, _⟩ :=
    reconcile_subset owned ownedRow 0 (List.subset_cons_self "amount" wide)
  obtain ⟨r, ok, _, members⟩ := fits _ rfl
  exact ⟨sub, List.subset_cons_self _ _, rfl, issues, r, ok, members⟩

end Model

end FilterQuery

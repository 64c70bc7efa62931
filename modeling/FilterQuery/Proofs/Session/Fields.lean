import FilterQuery.Proofs.Schema.Narrowed
import FilterQuery.Proofs.Select.Projected
import FilterQuery.Proofs.Session.Run

/-!
# The fields of records

What a query fetches and what its records hold, whatever executor runs it. Main
statement: the declared keys that a descriptor asks for are those that its rows are mapped
to, and a record has such a key just if its path leads somewhere in the row.
-/

namespace FilterQuery

namespace Members

theorem mem_keys_iff {ms : Members} {k : String} : k ∈ ms.keys ↔ ∃ v, ms.get? k = some v := by
  rw [← Option.ne_none_iff_exists', ne_eq, get?_eq_none_iff, not_not]

end Members

namespace Model

variable {m : Model} {row : Json} {keys : List String} {index : Nat} {record : Record} {k : String}

theorem declares_of_pathFor?_eq_some {path : String} (h : m.pathFor? k = some path) :
    m.declares k = true := by
  rw [← Bool.not_eq_false, ← pathFor?_eq_none_iff, h]
  nofun

/-- A row is mapped to the keys whose paths lead somewhere. -/
theorem mem_keys_mapRow_iff :
    k ∈ (m.mapRow keys row).keys ↔
      k ∈ keys ∧ ∃ path v, m.pathFor? k = some path ∧ row.atPath path = some v := by
  rw [Members.mem_keys_iff, get?_mapRow]
  by_cases asked : k ∈ keys
  · simp only [asked, if_true, true_and, valueIn?, Option.bind_eq_some_iff]
    exact exists_comm.trans (by simp only [exists_and_left])
  · simp [asked]

/-- Validation keeps the keys. -/
theorem mem_keys_of_reconcile_eq_ok (h : m.reconcile keys row index = .ok record) :
    k ∈ record.keys ↔
      k ∈ keys ∧ ∃ path v, m.pathFor? k = some path ∧ row.atPath path = some v := by
  have kept : (m.progress keys row).record.keys = (m.mapRow keys row).keys := by
    rw [progress, Schema.progress, Schema.keys_foldl_check]
  rw [← (reconcile_eq_ok_iff.1 h).2, kept, mem_keys_mapRow_iff]

end Model

/-! ## Records of a descriptor -/

namespace Query

/-- The keys that the rows of a query are mapped to: those of its result that the model
declares. -/
def mappedKeys (q : Query) : List String :=
  q.resultKeys.filter q.model.declares

variable {q : Query} {s : Select} {k : String}

/-- The keys that are mapped are those that are fetched. -/
theorem mem_mappedKeys_iff (model : s.model = q.model) (selection : s.selection = q.selection) :
    k ∈ q.mappedKeys ↔ k ∈ s.declaredKeys := by
  rw [mappedKeys, List.mem_filter, Select.mem_declaredKeys_iff, model, and_comm]
  refine and_congr_right fun declared => ?_
  unfold resultKeys
  cases given : q.selection with
  | none =>
    have asked : s.AsksFor k := Select.asksFor_of_selection_eq_none (selection.trans given)
    simp [asked, Model.mem_keys_iff, declared]
  | some sel =>
    rw [Select.asksFor_iff (selection.trans given)]
    simp [Selection.includedKeys]

end Query

/-- A record holds what a row gives for a descriptor: only keys whose path is fetched, and
of these the ones whose path leads somewhere in the row. -/
structure Select.Reconciles (s : Select) (row : Json) (record : Record) : Prop where
  nodup : record.keys.Nodup
  fetched : ∀ k ∈ record.keys, k ∈ s.declaredKeys ∧
    ∃ path ∈ s.projection, s.model.pathFor? k = some path
  present : ∀ k ∈ s.declaredKeys, (k ∈ record.keys ↔
    ∃ path v, s.model.pathFor? k = some path ∧ row.atPath path = some v)

namespace Query

variable {q : Query} {s : Select} {row : Json} {record : Record} {index : Nat}

theorem reconciles_of_reconcile_eq_ok (model : s.model = q.model)
    (selection : s.selection = q.selection) (h : q.reconcile index row = .ok record) :
    s.Reconciles row record := by
  rw [← Model.reconcile_resultKeys] at h
  have member : ∀ k, k ∈ record.keys ↔ k ∈ s.declaredKeys ∧
      ∃ path v, s.model.pathFor? k = some path ∧ row.atPath path = some v := by
    intro k
    rw [Model.mem_keys_of_reconcile_eq_ok h, ← mem_mappedKeys_iff model selection, mappedKeys,
      List.mem_filter, model, and_assoc]
    refine and_congr_right fun _ => (and_iff_right_of_imp ?_).symm
    -- only declared keys have a path
    rintro ⟨path, _, known, _⟩
    exact Model.declares_of_pathFor?_eq_some known
  refine ⟨?_, fun k listed => ?_, fun k asked => ?_⟩
  · rw [← (Model.reconcile_eq_ok_iff.1 h).2]
    exact Model.nodup_keys_progress
  · obtain ⟨asked, path, _, known, _⟩ := (member k).1 listed
    refine ⟨asked, path, ?_, known⟩
    have column := Select.pathFor_mem_projection asked
    rwa [Model.pathFor, known] at column
  · rw [member, and_iff_right asked]

/-- A descriptor has the model and the selection of its query. -/
theorem model_selection_of_build_eq_ok (h : q.build = .ok s) :
    s.model = q.model ∧ s.selection = q.selection := by
  rw [build_eq] at h
  obtain rfl := Model.eq_of_unlessRefused_eq_ok h
  exact ⟨rfl, rfl⟩

end Query

namespace Session

variable {σ : Type} {session : Session (StateM σ)} {q : Query} {ctx : Option Context}
  {before after : σ} {records : List Record}

/-- Records are those of the rows that the executor of the provider gives for the
descriptor. -/
theorem exists_rows_of_run_getMany
    (h : (session.getMany q ctx).run before = (.ok records, after)) :
    ∃ executor s rows, session.executor q.model.provider = .ok executor ∧ q.build = .ok s ∧
      (executor.run s ctx).run before = (.ok rows, after) ∧ q.records rows = .ok records := by
  rw [getMany] at h
  cases executor : session.executor q.model.provider with
  | error e =>
    rw [executor] at h
    cases h
  | ok e =>
    rw [executor] at h
    cases build : q.build with
    | error u =>
      simp only [Query.getMany_of_build_eq_error build] at h
      cases h
    | ok s =>
      simp only [Query.getMany, build, StateT.run_bind] at h
      cases outcome : (e.run s ctx).run before with
      | mk rows world =>
        rw [outcome] at h
        obtain ⟨settled, rfl⟩ := Prod.mk.inj h
        cases rows with
        | error e => cases settled
        | ok rows => exact ⟨e, s, rows, rfl, rfl, outcome, settled⟩

/-- What is fetched and what is returned agree. A descriptor of the query asks for the
declared keys that some entry of the selection includes, each once and in the order of the
model, and then for the other included keys; the rows are mapped to the same declared keys.
Every record that the session returns holds just those of them whose path leads somewhere in
its row, and each of these paths is a column of the descriptor that was run. -/
theorem getMany_fields (session : Session (StateM σ)) (q : Query) (ctx : Option Context)
    (before : σ) :
    (∀ s : Select, s.model = q.model → s.selection = q.selection →
      s.projectedKeys = s.declaredKeys ++ s.foreignKeys ∧
        s.declaredKeys.Sublist q.model.keys ∧ s.declaredKeys.Nodup ∧
        (∀ k, k ∈ s.declaredKeys ↔ q.model.declares k = true ∧ s.AsksFor k) ∧
        ∀ k, k ∈ q.mappedKeys ↔ k ∈ s.declaredKeys) ∧
    ∀ records after, (session.getMany q ctx).run before = (.ok records, after) →
      ∃ executor s rows, session.executor q.model.provider = .ok executor ∧
        q.build = .ok s ∧ (executor.run s ctx).run before = (.ok rows, after) ∧
        List.Forall₂ s.Reconciles rows records := by
  refine ⟨?_, ?_⟩
  · intro s model selection
    rw [← model]
    exact ⟨s.projectedKeys_eq, s.declaredKeys_sublist, s.nodup_declaredKeys,
      fun _ => Select.mem_declaredKeys_iff, fun _ => Query.mem_mappedKeys_iff model selection⟩
  · intro records after run
    obtain ⟨executor, s, rows, found, build, fetched, reconciled⟩ := exists_rows_of_run_getMany run
    obtain ⟨length, each⟩ := Query.records_eq_ok_iff.1 reconciled
    obtain ⟨model, selection⟩ := Query.model_selection_of_build_eq_ok build
    refine ⟨executor, s, rows, found, build, fetched, ?_⟩
    refine List.forall₂_iff_get.2 ⟨length.symm, fun i here there => ?_⟩
    exact Query.reconciles_of_reconcile_eq_ok model selection
      (each i _ _ (List.getElem?_eq_getElem here) (List.getElem?_eq_getElem there))

/-- Deals with their owners, one flag set twice and one key that is not declared. -/
def reflagged : Query where
  model := .owned
  selection := some ⟨[("owner", false), ("ghost", true), ("stage", true), ("owner", true)]⟩
  policy := .ignore

/-- A deal without a stage, whose owner stands under the name without the marker. -/
def unstaged : Json :=
  .object [("Id", .string "1"), ("Owner", .object [("Name", .string "Ada")])]

theorem getMany_fields_reflagged :
    let session : Session (StateM Nat) :=
      ({} : Session (StateM Nat)).withExecutor .salesforce
        { run := fun _ _ => modifyGet fun n => (.ok [unstaged], n + 1) }
    (session.getMany reflagged none).run 0 = (.ok [[("owner", .string "Ada")]], 1) ∧
      ∃ s, reflagged.build = .ok s ∧ s.projectedKeys = ["stage", "owner", "ghost"] ∧
        s.projection = ["StageName", "Owner__r.Name", "ghost"] ∧
        s.Reconciles unstaged [("owner", .string "Ada")] := by
  intro session
  have run : (session.getMany reflagged none).run 0 = (.ok [[("owner", .string "Ada")]], 1) := rfl
  obtain ⟨executor, s, rows, found, build, fetched, reconciles⟩ :=
    (getMany_fields session reflagged none 0).2 _ _ run
  cases found
  cases build
  cases fetched
  obtain _ | ⟨here, _⟩ := reconciles
  exact ⟨run, _, rfl, rfl, rfl, here⟩

end Session

end FilterQuery

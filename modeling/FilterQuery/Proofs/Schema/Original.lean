import FilterQuery.Proofs.Schema.Check
import FilterQuery.Proofs.Schema.Declared

/-!
# Validation against the original record

Validation writes into the record that it goes on reading. A check writes under its own key
only, and the keys of a schema are distinct, so that each check reads what the original
record held. Main statement: for a schema that has been built in any steps, a record is
coerced field by field if no declared field is bad, and else exactly the bad fields are
reported.
-/

namespace FilterQuery

/-- Why a field is bad, given the value under its key, if there is one. -/
inductive FieldSchema.Faults (s : FieldSchema) : Option Json → Reason → Prop
  | absent (required : s.required = true) : s.Faults none .required
  | unfit {v : Json} {reason : Reason} (refused : s.coerce v = .error reason) :
      s.Faults (some v) reason

namespace FieldSchema

variable {s : FieldSchema} {key : String} {value : Option Json}

/-- A field has an issue just if it is bad, with the reason for it. -/
theorem mem_issues_iff {issue : Issue} :
    issue ∈ s.issues key value ↔ issue.field = key ∧ s.Faults value issue.reason := by
  obtain ⟨field, reason⟩ := issue
  constructor
  · intro found
    refine ⟨field_of_mem_issues found, ?_⟩
    cases value with
    | none =>
      by_cases required : s.required = true
      · rw [issues, if_pos required] at found
        cases List.mem_singleton.1 found
        exact .absent required
      · rw [issues, if_neg required] at found
        cases found
    | some v =>
      cases fits : s.coerce v with
      | ok w =>
        rw [issues_of_coerce_eq_ok fits] at found
        cases found
      | error reason' =>
        rw [issues_of_coerce_eq_error fits] at found
        cases List.mem_singleton.1 found
        exact .unfit fits
  · rintro ⟨rfl, bad⟩
    cases bad with
    | absent required => simp [issues, required]
    | unfit refused => simp [issues_of_coerce_eq_error refused]

/-- A field has at most one issue, under its key. -/
theorem map_field_issues_sublist (s : FieldSchema) (key : String) (value : Option Json) :
    ((s.issues key value).map Issue.field).Sublist [key] := by
  unfold issues
  split <;> split <;> simp

end FieldSchema

namespace Schema

/-- A declared field that is bad in a record, for a reason. -/
def IsBad (schema : Schema) (record : Record) (key : String) (reason : Reason) : Prop :=
  ∃ s, schema.get? key = some s ∧ s.Faults (record.get? key) reason

variable {schema : Schema} {record : Record} {fields : List (String × FieldSchema)}
  {p : Progress}

/-! ## The run over distinct keys -/

/-- The issues are those that the fields have in the record as it was. -/
theorem issues_foldl_check (distinct : (fields.map Prod.fst).Nodup) :
    (fields.foldl check p).issues =
      p.issues ++ fields.flatMap fun f => f.2.issues f.1 (p.record.get? f.1) := by
  induction fields generalizing p with
  | nil => simp
  | cons field fields ih =>
    obtain ⟨fresh, distinct⟩ := List.nodup_cons.1 distinct
    have unread : ∀ f ∈ fields, (check p field).record.get? f.1 = p.record.get? f.1 := by
      intro f listed
      rw [get?_check, if_neg]
      intro same
      exact fresh (same ▸ List.mem_map_of_mem listed)
    have later : (fields.flatMap fun f => f.2.issues f.1 ((check p field).record.get? f.1)) =
        fields.flatMap fun f => f.2.issues f.1 (p.record.get? f.1) :=
      List.flatMap_congr fun f listed => by rw [unread f listed]
    rw [List.foldl_cons, ih distinct, issues_check, later, List.flatMap_cons, List.append_assoc]

/-- A declared value is what its field leaves of the original one. -/
theorem get?_foldl_check (distinct : (fields.map Prod.fst).Nodup) (k : String) :
    (fields.foldl check p).record.get? k =
      match fields.lookup k with
      | none => p.record.get? k
      | some s => (p.record.get? k).map s.settle := by
  induction fields generalizing p with
  | nil => rfl
  | cons field fields ih =>
    obtain ⟨fresh, distinct⟩ := List.nodup_cons.1 distinct
    rw [List.foldl_cons, ih distinct]
    by_cases here : field.1 = k
    · subst here
      have unread : fields.lookup field.1 = none := lookup_eq_none_iff.2 fresh
      simp [unread]
    · simp [here]

/-! ## The outcome -/

theorem mem_issues_progress_iff (distinct : schema.keys.Nodup) {issue : Issue} :
    issue ∈ (schema.progress record).issues ↔ schema.IsBad record issue.field issue.reason := by
  rw [progress, issues_foldl_check distinct, List.nil_append, List.mem_flatMap]
  constructor
  · rintro ⟨⟨key, s⟩, declared, found⟩
    obtain ⟨rfl, bad⟩ := FieldSchema.mem_issues_iff.1 found
    exact ⟨s, (mem_iff_lookup_eq_some distinct).1 declared, bad⟩
  · rintro ⟨s, declared, bad⟩
    exact ⟨(issue.field, s), (mem_iff_lookup_eq_some distinct).2 declared,
      FieldSchema.mem_issues_iff.2 ⟨rfl, bad⟩⟩

/-- The bad fields are reported in the order of the schema, each at most once. -/
theorem map_field_issues_progress_sublist (distinct : schema.keys.Nodup) :
    ((schema.progress record).issues.map Issue.field).Sublist schema.keys := by
  rw [progress, issues_foldl_check distinct, List.nil_append, List.map_flatMap, keys]
  induction schema.fields with
  | nil => exact List.Sublist.refl []
  | cons field fields ih =>
    exact (field.2.map_field_issues_sublist field.1 _).append ih

/-- Without bad fields the record is coerced field by field. -/
theorem exists_validate_eq_ok (distinct : schema.keys.Nodup) (index : Nat)
    (sound : ∀ key reason, ¬ schema.IsBad record key reason) :
    ∃ r, schema.validate record index = .ok r ∧ r.keys = record.keys ∧
      (∀ key, schema.get? key = none → r.get? key = record.get? key) ∧
      ∀ key s v, schema.get? key = some s → record.get? key = some v →
        ∃ w, s.coerce v = .ok w ∧ r.get? key = some w := by
  have none : (schema.progress record).issues = [] := by
    refine List.eq_nil_iff_forall_not_mem.2 fun issue found => ?_
    exact sound _ _ ((mem_issues_progress_iff distinct).1 found)
  refine ⟨_, validate_eq_ok_iff.2 ⟨none, rfl⟩, keys_foldl_check _ _, ?_, ?_⟩
  · intro key undeclared
    rw [progress, get?_foldl_check distinct, ← get?, undeclared]
  · intro key s v declared value
    rw [progress, get?_foldl_check distinct, ← get?, declared]
    cases fits : s.coerce v with
    | ok w => simp [value, FieldSchema.settle_of_coerce_eq_ok fits]
    | error reason => exact absurd ⟨s, declared, value ▸ .unfit fits⟩ (sound key reason)

/-- Bad fields are reported, and nothing else. -/
theorem exists_validate_eq_error (distinct : schema.keys.Nodup) (index : Nat)
    (bad : ∃ key reason, schema.IsBad record key reason) :
    ∃ issues, schema.validate record index = .error ⟨index, issues⟩ ∧
      (issues.map Issue.field).Sublist schema.keys ∧
      ∀ issue, issue ∈ issues ↔ schema.IsBad record issue.field issue.reason := by
  obtain ⟨key, reason, bad⟩ := bad
  have found : (⟨key, reason⟩ : Issue) ∈ (schema.progress record).issues :=
    (mem_issues_progress_iff distinct).2 bad
  refine ⟨(schema.progress record).issues, ?_, map_field_issues_progress_sublist distinct,
    fun issue => mem_issues_progress_iff distinct⟩
  rw [validate_eq, if_neg (List.ne_nil_of_mem found)]

/-- Validation by a schema that has been built in any steps. The schema has each key once, in
the order in which it was first declared without being dropped later, and says of it what was
declared last. If no declared field is bad in the record, the outcome is the record with the
same keys in the same order, where each declared value is the coercion of the original one
and the others are untouched. Else exactly the bad fields are reported, each once and in the
order of the schema, with the position of the record. -/
theorem validate_ofSteps (steps : List Step) (record : Record) (index : Nat) :
    let schema := ofSteps steps
    (schema.keys = ((standing steps).map Prod.fst).eraseDups ∧ schema.keys.Nodup ∧
      ∀ key, schema.get? key = (standing steps).reverse.lookup key) ∧
    ((∀ key reason, ¬ schema.IsBad record key reason) →
      ∃ r, schema.validate record index = .ok r ∧ r.keys = record.keys ∧
        (∀ key, schema.get? key = none → r.get? key = record.get? key) ∧
        ∀ key s v, schema.get? key = some s → record.get? key = some v →
          ∃ w, s.coerce v = .ok w ∧ r.get? key = some w) ∧
    ((∃ key reason, schema.IsBad record key reason) →
      ∃ issues, schema.validate record index = .error ⟨index, issues⟩ ∧
        (issues.map Issue.field).Sublist schema.keys ∧
        ∀ issue, issue ∈ issues ↔ schema.IsBad record issue.field issue.reason) := by
  intro schema
  have distinct : schema.keys.Nodup := nodup_keys_ofSteps steps
  exact ⟨⟨keys_ofSteps steps, distinct, get?_ofSteps steps⟩,
    exists_validate_eq_ok distinct index, exists_validate_eq_error distinct index⟩

/-- Steps that declare the count twice, and drop the note and declare it again. -/
def tally : List Step :=
  [.declare "note" { type := .string }, .declare "count" { type := .string },
    .declare "day" { type := .date }, .project ["day", "count", "ghost"],
    .declare "count" { type := .integer }, .declare "note" { type := .string, required := false }]

/-- A record that fits, with values of another form and a key that is not declared. -/
def tallied : Record :=
  [("day", .string "2024-3-9"), ("else", .null), ("count", .ofDouble (.ofInt 3))]

/-- A record without a day, whose other values do not fit. -/
def torn : Record :=
  [("note", .null), ("count", .string "3")]

theorem validate_ofSteps_tally :
    let schema := ofSteps tally
    schema.keys = ["count", "day", "note"] ∧
      (∃ r, schema.validate tallied 0 = .ok r ∧ r.keys = ["day", "else", "count"] ∧
        r.get? "else" = some .null) ∧
      schema.IsBad torn "day" .required ∧
      ∃ issues, schema.validate torn 7 = .error ⟨7, issues⟩ ∧
        (issues.map Issue.field).Sublist ["count", "day", "note"] ∧
        ⟨"day", .required⟩ ∈ issues ∧ ⟨"note", .mustNotBeNull⟩ ∈ issues := by
  intro schema
  have sound : ∀ key reason, ¬ schema.IsBad tallied key reason := by
    rintro key reason ⟨s, declared, bad⟩
    have listed := (mem_iff_lookup_eq_some (nodup_keys_ofSteps tally)).2 declared
    have fields : (ofSteps tally).fields = [("count", { type := .integer }),
      ("day", { type := .date }), ("note", { type := .string, required := false })] := rfl
    simp only [fields, List.mem_cons, Prod.mk.injEq, List.not_mem_nil, or_false] at listed
    rcases listed with ⟨rfl, rfl⟩ | ⟨rfl, rfl⟩ | ⟨rfl, rfl⟩
    · have value : tallied.get? "count" = some (.ofDouble (.ofInt 3)) := rfl
      rw [value] at bad
      cases bad with
      | unfit refused => cases refused
    · have value : tallied.get? "day" = some (.string "2024-3-9") := rfl
      rw [value] at bad
      cases bad with
      | unfit refused => cases refused
    · have value : tallied.get? "note" = none := rfl
      rw [value] at bad
      cases bad with
      | absent required => cases required
  have missing : schema.IsBad torn "day" .required := ⟨_, rfl, .absent rfl⟩
  have null : schema.IsBad torn "note" .mustNotBeNull := ⟨_, rfl, .unfit rfl⟩
  obtain ⟨r, done, keys, others, _⟩ := (validate_ofSteps tally tallied 0).2.1 sound
  obtain ⟨issues, refused, order, reported⟩ :=
    (validate_ofSteps tally torn 7).2.2 ⟨"day", .required, missing⟩
  exact ⟨rfl, ⟨r, done, keys, others "else" rfl⟩, missing, issues, refused, order,
    (reported _).2 missing, (reported _).2 null⟩

end Schema

end FilterQuery

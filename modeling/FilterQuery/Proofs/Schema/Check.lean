import FilterQuery.Proofs.Json.Members
import FilterQuery.Schema.Validation

/-!
# Checking one field

What the check of one declared field reads and writes: only the value under its own
key. From it, `validate` succeeds just if the run over all fields finds no issue.
-/

namespace FilterQuery

namespace FieldSchema

/-- The issues of a field, given the value under its key, if there is one. -/
def issues (s : FieldSchema) (key : String) : Option Json → List Issue
  | none => if s.required then [⟨key, .required⟩] else []
  | some v =>
      match s.coerce v with
      | .ok _ => []
      | .error reason => [⟨key, reason⟩]

/-- What the check leaves as the value: one that does not fit stays as it is. -/
def settle (s : FieldSchema) (v : Json) : Json :=
  match s.coerce v with
  | .ok w => w
  | .error _ => v

variable {s : FieldSchema} {key : String} {v w : Json} {reason : Reason}

theorem issues_of_coerce_eq_ok (h : s.coerce v = .ok w) : s.issues key (some v) = [] := by
  rw [issues, h]

theorem issues_of_coerce_eq_error (h : s.coerce v = .error reason) :
    s.issues key (some v) = [⟨key, reason⟩] := by
  rw [issues, h]

theorem settle_of_coerce_eq_ok (h : s.coerce v = .ok w) : s.settle v = w := by
  rw [settle, h]

theorem settle_of_coerce_eq_error (h : s.coerce v = .error reason) : s.settle v = v := by
  rw [settle, h]

/-- Every issue of a field is under its key. -/
theorem field_of_mem_issues {value : Option Json} {issue : Issue}
    (h : issue ∈ s.issues key value) : issue.field = key := by
  unfold issues at h
  split at h <;> split at h <;> simp_all

end FieldSchema

namespace Schema

variable (p : Progress) (field : String × FieldSchema)

/-- A check adds the issues of its field. -/
@[simp]
theorem issues_check :
    (check p field).issues = p.issues ++ field.2.issues field.1 (p.record.get? field.1) := by
  unfold check
  cases p.record.get? field.1 with
  | none => cases required : field.2.required <;> simp [FieldSchema.issues, required]
  | some v => cases fits : field.2.coerce v <;> simp [FieldSchema.issues, fits]

/-- A check writes the value that it leaves; a field that is absent stays so. -/
theorem record_check :
    (check p field).record =
      match p.record.get? field.1 with
      | none => p.record
      | some v => p.record.insert field.1 (field.2.settle v) := by
  unfold check
  cases value : p.record.get? field.1 with
  | none => cases required : field.2.required <;> simp
  | some v =>
    cases fits : field.2.coerce v with
    | ok w => simp only [fits, FieldSchema.settle_of_coerce_eq_ok fits]
    | error reason =>
      simp only [fits, FieldSchema.settle_of_coerce_eq_error fits,
        Members.insert_of_get?_eq_some value]

/-- A check changes no value but that of its field. -/
@[simp, grind =]
theorem get?_check (k : String) :
    (check p field).record.get? k =
      if field.1 = k then (p.record.get? k).map field.2.settle else p.record.get? k := by
  rw [record_check]
  by_cases same : field.1 = k
  · subst same
    rw [if_pos rfl]
    cases value : p.record.get? field.1 with
    | none => exact value
    | some v => simp
  · rw [if_neg same]
    cases p.record.get? field.1 with
    | none => rfl
    | some v => simp [same]

/-- A check keeps the keys and their order. -/
@[simp]
theorem keys_check : (check p field).record.keys = p.record.keys := by
  rw [record_check]
  split
  · rfl
  · grind

@[simp]
theorem keys_foldl_check (fields : List (String × FieldSchema)) (p : Progress) :
    (fields.foldl check p).record.keys = p.record.keys := by
  induction fields generalizing p with
  | nil => rfl
  | cons field fields ih => rw [List.foldl_cons, ih, keys_check]

variable (schema : Schema) (record : Record) (index : Nat)

/-- A record after the check of every field. -/
def progress : Progress :=
  schema.fields.foldl check { record := record }

theorem validate_eq :
    schema.validate record index =
      if (schema.progress record).issues = [] then .ok (schema.progress record).record
      else .error ⟨index, (schema.progress record).issues⟩ := by
  unfold validate progress
  exact if_congr List.isEmpty_iff rfl rfl

variable {schema record index}

theorem validate_eq_ok_iff {r : Record} :
    schema.validate record index = .ok r ↔
      (schema.progress record).issues = [] ∧ (schema.progress record).record = r := by
  rw [validate_eq]
  split <;> simp_all

end Schema

end FilterQuery

import FilterQuery.Proofs.Schema.Check
import FilterQuery.Proofs.Schema.Coercion

/-!
# Validating a record again

Validation gives a record that its fields give value by value. Main statement: such a
record is its own validation, unless it holds a point in time whose year is printed
with a sign; then exactly those fields are reported.
-/

namespace FilterQuery.Schema

variable {schema : Schema} {record r : Record} {fields : List (String × FieldSchema)}
  {p : Progress} {field : String × FieldSchema}

/-- Each of some fields has in a record a value that it gives, or may be absent. -/
structure Settled (fields : List (String × FieldSchema)) (r : Record) : Prop where
  given : ∀ field ∈ fields, ∀ w, r.get? field.1 = some w → ∃ v, field.2.Fits v w
  absent : ∀ field ∈ fields, r.get? field.1 = none → field.2.required = false

theorem Settled.nil (r : Record) : Settled [] r where
  given _ h := nomatch h
  absent _ h := nomatch h

theorem fits_settle {s : FieldSchema} {key : String} {v : Json}
    (sound : s.issues key (some v) = []) : s.Fits v (s.settle v) := by
  cases fits : s.coerce v with
  | error reason =>
    rw [FieldSchema.issues_of_coerce_eq_error fits] at sound
    cases sound
  | ok w =>
    rw [FieldSchema.settle_of_coerce_eq_ok fits]
    exact FieldSchema.coerce_eq_ok_iff.1 fits

theorem required_eq_false {s : FieldSchema} {key : String} (sound : s.issues key none = []) :
    s.required = false := by
  cases required : s.required <;> simp [FieldSchema.issues, required] at sound ⊢

/-- A check without issues settles its field. A field that was settled before stays so,
also when it has the same key. -/
theorem Settled.check (h : Settled fields p.record)
    (sound : field.2.issues field.1 (p.record.get? field.1) = []) :
    Settled (fields ++ [field]) (check p field).record where
  given other mem w here := by
    rw [get?_check] at here
    by_cases same : field.1 = other.1
    · rw [if_pos same] at here
      obtain ⟨v, value, rfl⟩ := Option.map_eq_some_iff.1 here
      rw [same, value] at sound
      have fits := fits_settle sound
      rcases List.mem_append.1 mem with before | last
      · obtain ⟨_, given⟩ := h.given other before v value
        exact given.exists_after fits
      · obtain rfl := List.mem_singleton.1 last
        exact ⟨v, fits⟩
    · rw [if_neg same] at here
      rcases List.mem_append.1 mem with before | last
      · exact h.given other before w here
      · exact absurd (List.mem_singleton.1 last ▸ rfl) same
  absent other mem after := by
    have absent : p.record.get? other.1 = none := by
      rw [Members.get?_eq_none_iff] at after ⊢
      rwa [keys_check] at after
    rcases List.mem_append.1 mem with before | last
    · exact h.absent other before absent
    · obtain rfl := List.mem_singleton.1 last
      rw [absent] at sound
      exact required_eq_false sound

/-- A run without issues settles every field. -/
theorem settled_foldl_check (sound : (fields.foldl Schema.check p).issues = []) :
    Settled fields (fields.foldl Schema.check p).record := by
  induction fields using List.reverseRecOn with
  | nil => exact .nil _
  | append_singleton fields field ih =>
    rw [List.foldl_append, List.foldl_cons, List.foldl_nil] at sound ⊢
    rw [issues_check, List.append_eq_nil_iff] at sound
    exact (ih sound.1).check sound.2

/-! ## The second run -/

/-- Where the value stays as it is, a check only adds issues. -/
theorem check_of_settle_eq
    (same : ∀ v, p.record.get? field.1 = some v → field.2.settle v = v) :
    Schema.check p field = { p with
      issues := p.issues ++ field.2.issues field.1 (p.record.get? field.1) } := by
  have record : (Schema.check p field).record = p.record := by
    rw [record_check]
    cases value : p.record.get? field.1 with
    | none => rfl
    | some v =>
      simp only [same v value]
      exact Members.insert_of_get?_eq_some value
  rw [← issues_check, ← record]

theorem foldl_check_of_settle_eq
    (same : ∀ field ∈ fields, ∀ v, p.record.get? field.1 = some v → field.2.settle v = v) :
    fields.foldl Schema.check p = { p with
      issues := p.issues ++ fields.flatMap fun f => f.2.issues f.1 (p.record.get? f.1) } := by
  induction fields generalizing p with
  | nil => simp
  | cons field fields ih =>
    rw [List.foldl_cons, check_of_settle_eq (same field List.mem_cons_self)]
    have rest := ih (p := { p with
      issues := p.issues ++ field.2.issues field.1 (p.record.get? field.1) })
      fun other mem => same other (List.mem_cons_of_mem _ mem)
    rw [rest, List.flatMap_cons, List.append_assoc]

theorem Settled.settle_eq (h : Settled fields r) (mem : field ∈ fields) {w : Json}
    (value : r.get? field.1 = some w) : field.2.settle w = w := by
  obtain ⟨v, given⟩ := h.given field mem w value
  rcases given.again with fits | ⟨t, signed⟩
  · exact FieldSchema.settle_of_coerce_eq_ok (FieldSchema.coerce_eq_ok_iff.2 fits)
  · exact FieldSchema.settle_of_coerce_eq_error signed.coerce

/-- A field with a point in time that is printed with a sign before its year. -/
def HoldsSigned (fields : List (String × FieldSchema)) (r : Record) (key : String)
    (t : Timestamp) : Prop :=
  ∃ s w, (key, s) ∈ fields ∧ r.get? key = some w ∧ s.HoldsSigned w t

/-- The only issue that a settled field has is that its point in time cannot be read. -/
theorem Settled.mem_issues_iff (h : Settled fields r) (mem : field ∈ fields) (issue : Issue) :
    issue ∈ field.2.issues field.1 (r.get? field.1) ↔
      ∃ w t, r.get? field.1 = some w ∧ field.2.HoldsSigned w t ∧
        issue = ⟨field.1, .invalidTimestamp t.millisText⟩ := by
  cases value : r.get? field.1 with
  | none => simp [FieldSchema.issues, h.absent field mem value]
  | some w =>
    obtain ⟨v, given⟩ := h.given field mem w value
    rcases given.again with fits | ⟨t, signed⟩
    · have sound := FieldSchema.coerce_eq_ok_iff.2 fits
      rw [FieldSchema.issues_of_coerce_eq_ok sound]
      refine ⟨fun mem => absurd mem List.not_mem_nil, ?_⟩
      rintro ⟨_, t, ⟨⟩, signed, rfl⟩
      rw [signed.coerce] at sound
      cases sound
    · rw [FieldSchema.issues_of_coerce_eq_error signed.coerce, List.mem_singleton]
      refine ⟨fun here => ⟨w, t, rfl, signed, here⟩, ?_⟩
      rintro ⟨_, t', ⟨⟩, signed', rfl⟩
      have same : t'.millisText = t.millisText :=
        Json.string.inj (signed'.2.2.symm.trans signed.2.2)
      rw [same]

theorem Settled.mem_flatMap_issues_iff (h : Settled fields r) (issue : Issue) :
    issue ∈ (fields.flatMap fun f => f.2.issues f.1 (r.get? f.1)) ↔
      ∃ key t, HoldsSigned fields r key t ∧
        issue = ⟨key, .invalidTimestamp t.millisText⟩ := by
  rw [List.mem_flatMap]
  constructor
  · rintro ⟨field, mem, here⟩
    obtain ⟨w, t, value, signed, rfl⟩ := (h.mem_issues_iff mem issue).1 here
    exact ⟨field.1, t, ⟨field.2, w, mem, value, signed⟩, rfl⟩
  · rintro ⟨key, t, ⟨s, w, mem, value, signed⟩, rfl⟩
    exact ⟨(key, s), mem, (h.mem_issues_iff mem _).2 ⟨w, t, value, signed, rfl⟩⟩

/-- A record that validation gave is its own validation, at any position, unless a field
holds a point in time that is printed with a sign before its year. Then the record is
refused, and exactly these fields are reported. -/
theorem validate_validate {i : Nat} (h : schema.validate record i = .ok r) (j : Nat) :
    ((∀ key t, ¬ HoldsSigned schema.fields r key t) → schema.validate r j = .ok r) ∧
    ((∃ key t, HoldsSigned schema.fields r key t) →
      ∃ issues, schema.validate r j = .error ⟨j, issues⟩ ∧
        ∀ issue, issue ∈ issues ↔ ∃ key t, HoldsSigned schema.fields r key t ∧
          issue = ⟨key, .invalidTimestamp t.millisText⟩) := by
  obtain ⟨sound, rfl⟩ := validate_eq_ok_iff.1 h
  have settled : Settled schema.fields (schema.progress record).record :=
    settled_foldl_check sound
  have again := foldl_check_of_settle_eq (p := { record := (schema.progress record).record })
    fun field mem _ value => settled.settle_eq mem value
  rw [List.nil_append] at again
  have reported := settled.mem_flatMap_issues_iff
  constructor
  · intro unsigned
    rw [validate_eq_ok_iff, progress, again]
    refine ⟨List.eq_nil_iff_forall_not_mem.2 fun issue mem => ?_, rfl⟩
    obtain ⟨key, t, signed, _⟩ := (reported issue).1 mem
    exact unsigned key t signed
  · rintro ⟨key, t, signed⟩
    have found := (reported _).2 ⟨key, t, signed, rfl⟩
    refine ⟨_, ?_, reported⟩
    rw [validate_eq, progress, again, if_neg (List.ne_nil_of_mem found)]

/-- A count, the day and the hour of a visit. -/
def visits : Schema :=
  ⟨[("count", { type := .integer }), ("day", { type := .date }),
    ("at", { type := .timestamp, nullable := true })]⟩

/-- A year that needs a sign only after the offset has been taken away. -/
theorem validate_signed_twice :
    visits.validate [("count", .ofInt 1), ("day", .string "9999-12-31"),
        ("at", .string "9999-12-31T23:59:59-05:00")] 0 =
      .ok [("count", .ofInt 1), ("day", .string "9999-12-31"),
        ("at", .string "+10000-01-01T04:59:59.000Z")] ∧
    visits.validate [("count", .ofInt 1), ("day", .string "9999-12-31"),
        ("at", .string "+10000-01-01T04:59:59.000Z")] 1 =
      .error ⟨1, [⟨"at", .invalidTimestamp "+10000-01-01T04:59:59.000Z"⟩]⟩ :=
  ⟨rfl, rfl⟩

/-- A visit, none of whose values has the form of its type. -/
def visit : Record :=
  [("day", .string "2024-3-9"), ("count", .ofDouble (.ofInt 3)),
    ("at", .string "2024-12-31T23:30:00.5-0045"), ("note", .null)]

/-- The same visit as validation gives it. -/
def visitSettled : Record :=
  [("day", .string "2024-03-09"), ("count", .ofInt 3),
    ("at", .string "2025-01-01T00:15:00.500Z"), ("note", .null)]

theorem validate_validate_visits :
    visits.validate visit 0 = .ok visitSettled ∧
      visits.validate visitSettled 7 = .ok visitSettled := by
  have first : visits.validate visit 0 = .ok visitSettled := rfl
  refine ⟨first, (validate_validate first 7).1 ?_⟩
  rintro key t ⟨s, w, mem, value, signed⟩
  have refused := signed.coerce
  simp only [visits, List.mem_cons, Prod.mk.injEq, List.not_mem_nil, or_false] at mem
  -- each of the values fits its field again
  rcases mem with ⟨rfl, rfl⟩ | ⟨rfl, rfl⟩ | ⟨rfl, rfl⟩ <;> cases value <;> cases refused

end FilterQuery.Schema

import FilterQuery.Proofs.Calendar.Times
import FilterQuery.Schema.Validation

/-!
# Values that fit a field

What a field makes of a value that fits it, one case for each type. Main statements: a
value that a field gives fits that field and stays as it is, unless it is a point in
time whose year is printed with a sign; and whatever other fields make of it, it is
still a value that the field gives.
-/

namespace FilterQuery

theorem Number.ofInt?_eq_some {k : Int} {m : Number} (h : Number.ofInt? k = some m) :
    ∃ range : FitsWord k, m = .int k range := by
  unfold Number.ofInt? at h
  split at h
  · next range => exact ⟨range, (Option.some.inj h).symm⟩
  · cases h

/-- What is brought to an integer is one. -/
theorem Number.toInteger?_of_toInteger?_eq_some {n m : Number} (h : n.toInteger? = some m) :
    m.toInteger? = some m := by
  unfold Number.toInteger? at h
  split at h
  · obtain rfl := Option.some.inj h
    rfl
  · split at h
    · split at h
      · obtain ⟨_, rfl⟩ := Number.ofInt?_eq_some h
        rfl
      · cases h
    · cases h

namespace FieldSchema

/-- A value that fits a field, and the form that the field gives it. -/
inductive Fits (s : FieldSchema) : Json → Json → Prop
  | null (allowed : s.nullable = true ∨ s.type = .json) : Fits s .null .null
  | json (type : s.type = .json) (v : Json) : Fits s v v
  | string (type : s.type = .string) (text : String) : Fits s (.string text) (.string text)
  | boolean (type : s.type = .boolean) (b : Bool) : Fits s (.bool b) (.bool b)
  | number (type : s.type = .number) (n : Number) : Fits s (.number n) (.number n)
  | integer (type : s.type = .integer) {n m : Number} (whole : n.toInteger? = some m) :
      Fits s (.number n) (.number m)
  | date (type : s.type = .date) {text : String} {d : Date} (read : Date.read? text = some d) :
      Fits s (.string text) (.string d.text)
  | timestamp (type : s.type = .timestamp) {text : String} {t : Timestamp}
      (read : Timestamp.read? text = some t) : Fits s (.string text) (.string t.millisText)

variable {s s' : FieldSchema} {v w w' : Json}

theorem coerce_of_fits (h : s.Fits v w) : s.coerce v = .ok w := by
  cases h with
  | null allowed => rw [coerce, if_pos allowed]
  | json type v => cases v <;> simp [coerce, coerceTyped, type]
  | string type | boolean type | number type => simp [coerce, coerceTyped, type]
  | integer type found | date type found | timestamp type found =>
    simp [coerce, coerceTyped, type, found]

theorem fits_of_coerce (h : s.coerce v = .ok w) : s.Fits v w := by
  cases v with
  | null =>
    rw [coerce] at h
    split at h
    · next allowed =>
      cases h
      exact .null allowed
    · cases h
  | bool b =>
    cases type : s.type <;> simp only [coerce, coerceTyped, type] at h <;> cases h
    · exact .boolean type b
    · exact .json type _
  | number n =>
    cases type : s.type <;> simp only [coerce, coerceTyped, type] at h
    case integer =>
      split at h <;> cases h
      exact .integer type ‹_›
    all_goals cases h
    · exact .number type n
    · exact .json type _
  | string text =>
    cases type : s.type <;> simp only [coerce, coerceTyped, type] at h
    case date =>
      split at h <;> cases h
      exact .date type ‹_›
    case timestamp =>
      split at h <;> cases h
      exact .timestamp type ‹_›
    all_goals cases h
    · exact .string type text
    · exact .json type _
  | array items =>
    cases type : s.type <;> simp only [coerce, coerceTyped, type] at h <;> cases h
    exact .json type _
  | object members =>
    cases type : s.type <;> simp only [coerce, coerceTyped, type] at h <;> cases h
    exact .json type _

theorem coerce_eq_ok_iff : s.coerce v = .ok w ↔ s.Fits v w :=
  ⟨fits_of_coerce, coerce_of_fits⟩

/-- The field holds a point in time that no reader takes, as it is printed: its year has
a sign. -/
def HoldsSigned (s : FieldSchema) (w : Json) (t : Timestamp) : Prop :=
  s.type = .timestamp ∧ ¬ Calendar.IsPlainYear t.date.year ∧ w = .string t.millisText

/-- A value that a field gives is a fixed point of it, unless no reader takes it. -/
theorem Fits.again (h : s.Fits v w) : s.Fits w w ∨ ∃ t, s.HoldsSigned w t := by
  cases h with
  | null allowed => exact .inl (.null allowed)
  | json type => exact .inl (.json type _)
  | string type text => exact .inl (.string type text)
  | boolean type b => exact .inl (.boolean type b)
  | number type n => exact .inl (.number type n)
  | integer type whole =>
    exact .inl (.integer type (Number.toInteger?_of_toInteger?_eq_some whole))
  | @date type _ d => exact .inl (.date type d.read?_text)
  | @timestamp type _ t =>
    by_cases plain : Calendar.IsPlainYear t.date.year
    · have again := Fits.timestamp type (Timestamp.read?_millisText_of_plain plain)
      rw [t.millisText_toMillis] at again
      exact .inl again
    · exact .inr ⟨t, type, plain, rfl⟩

theorem HoldsSigned.coerce {t : Timestamp} (h : s.HoldsSigned w t) :
    s.coerce w = .error (.invalidTimestamp t.millisText) := by
  obtain ⟨type, signed, rfl⟩ := h
  simp only [FieldSchema.coerce, coerceTyped, type, Timestamp.read?_millisText_of_not_plain signed]

/-- What one field gives stays a value of its kind when another field takes it. No text
is read both as a date and as a point in time once it has been printed. -/
theorem Fits.exists_after (h : s.Fits v w) (h' : s'.Fits w w') : ∃ v', s.Fits v' w' := by
  cases h with
  | null allowed => cases h' <;> exact ⟨_, .null allowed⟩
  | json type => exact ⟨_, .json type w'⟩
  | string type => cases h' <;> exact ⟨_, .string type _⟩
  | boolean type => cases h' <;> exact ⟨_, .boolean type _⟩
  | number type => cases h' <;> exact ⟨_, .number type _⟩
  | integer type whole =>
    cases h' with
    | json | number => exact ⟨_, .integer type whole⟩
    | integer _ whole' => exact ⟨_, .integer type whole'⟩
  | @date type _ d read =>
    have given := Fits.date type read
    have other := Timestamp.read?_dateText d
    -- how the text was printed says no more than these two facts
    generalize d.text = printed at h' given other
    cases h' with
    | json | string => exact ⟨_, given⟩
    | date _ read' => exact ⟨_, .date type read'⟩
    | timestamp _ read' =>
      rw [other] at read'
      cases read'
  | @timestamp type _ t read =>
    have given := Fits.timestamp type read
    have other := Date.read?_millisText t
    generalize t.millisText = printed at h' given other
    cases h' with
    | json | string => exact ⟨_, given⟩
    | date _ read' =>
      rw [other] at read'
      cases read'
    | timestamp _ read' => exact ⟨_, .timestamp type read'⟩

end FieldSchema

end FilterQuery

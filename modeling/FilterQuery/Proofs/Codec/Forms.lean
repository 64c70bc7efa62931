import FilterQuery.Codec.Form
import FilterQuery.Proofs.Calendar.Exact
import FilterQuery.Proofs.Result

/-!
# Reading encoded forms back

What each form reads from the text, number, array or object that was written for it. Main
statement: a record takes from an object that has its fields in order one value for each
field.
-/

namespace FilterQuery

theorem fitsSigned_toInt (n : Int64) : FitsSigned n.toInt := by
  have low := n.le_toInt
  have high := n.toInt_lt
  omega

theorem Json.ofInt_of_fitsWord {n : Int} (h : FitsWord n) : Json.ofInt n = .number (.int n h) := by
  rw [Json.ofInt, Number.ofInt?, dif_pos h]

namespace Codec

/-! ## Texts, numbers and dates -/

@[simp]
theorem demand_some {α : Type} (name : String) (a : α) : demand name (some a) = .ok a :=
  rfl

@[simp]
theorem asText_string (s : String) : asText (.string s) = .ok s :=
  rfl

@[simp]
theorem asBool_bool (b : Bool) : asBool (.bool b) = .ok b :=
  rfl

/-- An integer that fits is read as it is. -/
theorem asInteger_ofInt {fits : Int → Bool} {wanted : Wanted} {n : Int} (word : FitsWord n)
    (h : fits n = true) : asInteger fits wanted (.ofInt n) = .ok n := by
  rw [Json.ofInt_of_fitsWord word, asInteger, if_pos h]

@[simp]
theorem asI64_ofInt (n : Int64) : asI64 (.ofInt n.toInt) = .ok n := by
  have signed := fitsSigned_toInt n
  rw [asI64, asInteger_ofInt ((fitsWord_iff _).2 (.inl signed)) (decide_eq_true signed),
    map_ok, Int64.ofInt_toInt]

@[simp]
theorem asU32_ofNat (n : UInt32) : asU32 (.ofNat n.toNat) = .ok n := by
  have unsigned : FitsUnsigned32 n.toNat := by
    have high := n.toNat_lt
    omega
  rw [asU32, Json.ofNat, asInteger_ofInt (by omega) (decide_eq_true unsigned), map_ok,
    Int.toNat_natCast, UInt32.ofNat_toNat]

@[simp]
theorem asSize_ofNat (n : UInt64) : asSize (.ofNat n.toNat) = .ok n := by
  have unsigned : FitsUnsigned n.toNat := by
    have high := n.toNat_lt
    omega
  rw [asSize, Json.ofNat, asInteger_ofInt ((fitsWord_iff _).2 (.inr unsigned))
    (decide_eq_true unsigned), map_ok, Int.toNat_natCast, UInt64.ofNat_toNat]

/-- A double that is not finite is written as null, which is no double. -/
@[simp]
theorem asDouble_ofDouble_iff {d : Double} :
    asDouble (.ofDouble d) = .ok d ↔ d.isFinite = true := by
  rw [Json.ofDouble, Number.ofDouble?]
  by_cases finite : d.isFinite = true
  · rw [dif_pos finite]
    exact iff_of_true rfl finite
  · rw [dif_neg finite]
    exact iff_of_false nofun finite

@[simp]
theorem asDate_text (d : Date) : asDate (.string d.text) = .ok d := by
  rw [asDate, Calendar.readDate_text, mapError_ok]

@[simp]
theorem asTimestamp_exactText (t : Timestamp) : asTimestamp (.string t.exactText) = .ok t := by
  rw [asTimestamp, Calendar.readTime_exactText, mapError_ok]

/-! ## Optional values, sequences and names -/

variable {α β : Type} {read : Json → Decoded α} {write : α → Json}

/-- An optional value is read back if no value is written as null. -/
theorem asOptional_ofOption {cause : Mismatch} (refused : read .null = .error cause)
    (each : ∀ a, read (write a) = .ok a) (o : Option α) :
    asOptional read (.ofOption write o) = .ok o := by
  cases o with
  | none => rfl
  | some a =>
    have present : write a ≠ .null := by
      intro absent
      have back := each a
      rw [absent, refused] at back
      cases back
    rw [Json.ofOption, asOptional, each, map_ok]
    exact present

theorem asSequence_map {as : List α} (each : ∀ a ∈ as, read (write a) = .ok a) :
    asSequence read (.array (as.map write)) = .ok as := by
  rw [asSequence]
  induction as with
  | nil => rfl
  | cons a as ih =>
    obtain ⟨here, others⟩ := List.forall_mem_cons.1 each
    rw [List.map_cons, List.mapM_cons, here, ih others]
    rfl

theorem asPair_array {first : Json → Decoded α} {second : Json → Decoded β} {v w : Json}
    {a : α} {b : β} (left : first v = .ok a) (right : second w = .ok b) :
    asPair first second (.array [v, w]) = .ok (a, b) := by
  simp [asPair, left, right]

/-- A name of the table stands for its value. -/
theorem oneOf_string {table : List (String × α)} {name : String} {a : α} (source : Source)
    (found : table.lookup name = some a) : oneOf source table (.string name) = .ok a := by
  have known : name ∈ table.map Prod.fst := by
    obtain ⟨_, _, split, _⟩ := List.lookup_eq_some_iff.1 found
    rw [split, List.map_append]
    exact List.mem_append_right _ (List.mem_cons_self ..)
  rw [oneOf, alternative, knownName, if_pos known]
  simp [found, noContents]

/-! ## Records -/

namespace RecordForm

/-- A field is found by its name. -/
theorem find?_name {fields : List (FieldForm α)} {f : FieldForm α}
    (distinct : (fields.map FieldForm.name).Nodup) (h : f ∈ fields) :
    (fields.find? fun g => g.name = f.name) = some f := by
  induction fields with
  | nil => cases h
  | cons g fields ih =>
    obtain ⟨once, distinct⟩ := List.nodup_cons.1 distinct
    rcases List.mem_cons.1 h with rfl | later
    · exact List.find?_cons_of_pos (decide_eq_true rfl)
    · have other : g.name ≠ f.name := by
        intro same
        exact once (same ▸ List.mem_map_of_mem later)
      rw [List.find?_cons_of_neg (by simpa using other), ih distinct later]

/-- Puts values into fields of a record, one after the other. -/
@[simp]
def putAll : List (FieldForm α × Json) → α → Decoded α
  | [], acc => .ok acc
  | (f, v) :: puts, acc => f.put v acc >>= putAll puts

theorem ofMembers_cons {r : RecordForm α} (distinct : (r.fields.map FieldForm.name).Nodup)
    {f : FieldForm α} (h : f ∈ r.fields) (v : Json) (ms : Members) :
    r.ofMembers ((f.name, v) :: ms) =
      f.put v r.blank >>= fun acc => { r with blank := acc }.ofMembers ms := by
  simp [ofMembers, find?_name distinct h]

/-- Members in the order of some fields are put into these fields. -/
theorem ofMembers_zip {r : RecordForm α} (distinct : (r.fields.map FieldForm.name).Nodup)
    {fields : List (FieldForm α)} (known : ∀ f ∈ fields, f ∈ r.fields) (vs : List Json) :
    r.ofMembers ((fields.map FieldForm.name).zip vs) = putAll (fields.zip vs) r.blank := by
  -- what has been put in is the blank record of the rest
  induction fields generalizing r vs with
  | nil => rfl
  | cons f fields ih =>
    obtain ⟨here, others⟩ := List.forall_mem_cons.1 known
    cases vs with
    | nil => rfl
    | cons v vs =>
      rw [List.map_cons, List.zip_cons_cons, ofMembers_cons distinct here, List.zip_cons_cons,
        putAll]
      refine bind_congr fun acc => ?_
      exact ih (r := { r with blank := acc }) distinct others vs

/-- A record takes from an object that has its fields in order one value for each field. -/
theorem read_object (r : RecordForm α) (distinct : (r.fields.map FieldForm.name).Nodup)
    (source : Source) (vs : List Json) :
    r.read source (.object ((r.fields.map FieldForm.name).zip vs)) =
      putAll (r.fields.zip vs) r.blank := by
  rw [read, ofMembers_zip distinct fun _ h => h]

end RecordForm

end Codec

end FilterQuery

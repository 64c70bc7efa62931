import FilterQuery.Proofs.Number.Exact
import FilterQuery.Proofs.Schema.Coercion

/-!
# Fields of integers

What a field of integers makes of a number. Main statement: an integer stays as it is, a
double becomes the integer that it denotes, and no number that is accepted changes. The
integers that doubles may denote lie strictly between `-2 ^ 63` and `2 ^ 63`, so of all
integers of 64 bits only the least is refused as a double.
-/

namespace FilterQuery

/-- A double is brought to the integer that it denotes, if that lies in a range without the
least integer of 64 bits. -/
theorem Number.toInteger?_double_eq_some_iff {d : Double} {finite : d.isFinite = true}
    {m : Number} : (Number.double d finite).toInteger? = some m ↔
      ∃ n word, m = .int n word ∧ d.toRat = n ∧ n.natAbs ≤ 9223372036854775807 := by
  rw [toInteger?]
  constructor
  · intro whole
    split at whole
    · next n found =>
      split at whole
      · next small =>
        obtain ⟨word, rfl⟩ := ofInt?_eq_some whole
        exact ⟨n, word, rfl, (Double.toInt?_eq_some_iff.1 found).2, small⟩
      · cases whole
    · cases whole
  · rintro ⟨n, word, rfl, value, small⟩
    rw [Double.toInt?_eq_some_iff.2 ⟨finite, value⟩]
    simp only [if_pos small, ofInt?, dif_pos word]

namespace FieldSchema

variable {s : FieldSchema} {v : Number}

theorem coerce_number_of_toInteger?_eq_some (integer : s.type = .integer) {m : Number}
    (h : v.toInteger? = some m) : s.coerce (.number v) = .ok (.number m) :=
  coerce_of_fits (.integer integer h)

theorem coerce_number_of_toInteger?_eq_none (integer : s.type = .integer)
    (h : v.toInteger? = none) : s.coerce (.number v) = .error (.notWhole v) := by
  simp only [coerce, coerceTyped, integer, h]

/-- The two outcomes for a number in a field of integers. -/
theorem coerce_number_eq_ok_iff (integer : s.type = .integer) {w : Json} :
    s.coerce (.number v) = .ok w ↔ ∃ m, w = .number m ∧ v.toInteger? = some m := by
  cases h : v.toInteger? with
  | none => simp [coerce_number_of_toInteger?_eq_none integer h]
  | some m =>
    rw [coerce_number_of_toInteger?_eq_some integer h]
    simp [eq_comm]

/-- A field of integers. An integer, with a sign or without, stays as it is. A double that
denotes an integer of 64 bits is treated like it, unless that is the least one. Every other
double is refused, and so is the least integer of 64 bits as a double. No number that is
accepted changes. -/
theorem coerce_number_exact (s : FieldSchema) (integer : s.type = .integer) :
    (∀ n word, s.coerce (.number (.int n word)) = .ok (.number (.int n word))) ∧
    (∀ d finite (n : Int) (fits : FitsSigned n), Double.toRat d = n →
      (s.coerce (.number (.double d finite)) =
        .ok (.number (.int n ((fitsWord_iff n).2 (.inl fits)))) ↔
        n ≠ -9223372036854775808)) ∧
    (∀ d finite,
      (∀ n : Int, FitsSigned n → n ≠ -9223372036854775808 → Double.toRat d ≠ n) →
      s.coerce (.number (.double d finite)) = .error (.notWhole (.double d finite))) ∧
    ∀ v w, s.coerce (.number v) = .ok w → ∃ n word, w = .number (.int n word) ∧ v.toRat = n := by
  refine ⟨fun n word => coerce_number_of_toInteger?_eq_some integer rfl, ?_, ?_, ?_⟩
  · intro d finite n fits value
    simp only [coerce_number_eq_ok_iff integer, Json.number.injEq, exists_eq_left',
      Number.toInteger?_double_eq_some_iff, Number.int.injEq]
    constructor
    · rintro ⟨_, _, rfl, _, small⟩
      omega
    · intro least
      exact ⟨n, (fitsWord_iff n).2 (.inl fits), rfl, value, by omega⟩
  · intro d finite other
    refine coerce_number_of_toInteger?_eq_none integer ?_
    rw [Option.eq_none_iff_forall_ne_some]
    intro m whole
    obtain ⟨n, _, _, value, small⟩ := Number.toInteger?_double_eq_some_iff.1 whole
    exact other n (by omega) (by omega) value
  · intro v w accepted
    obtain ⟨m, rfl, whole⟩ := (coerce_number_eq_ok_iff integer).1 accepted
    cases v with
    | int n word =>
      obtain rfl := Option.some.inj whole
      exact ⟨n, word, rfl, rfl⟩
    | double d finite =>
      obtain ⟨n, word, rfl, value, _⟩ := Number.toInteger?_double_eq_some_iff.1 whole
      exact ⟨n, word, rfl, value⟩

/-- A required field of integers. -/
def tally : FieldSchema where
  type := .integer

/-- The double 42. -/
def fortyTwo : Double := ⟨0x4045000000000000⟩

/-- The double one half. -/
def half : Double := ⟨0x3FE0000000000000⟩

theorem coerce_number_exact_tally :
    tally.type = .integer ∧ FitsSigned 42 ∧ fortyTwo.toRat = (42 : Int) ∧
      tally.coerce (.number (.double fortyTwo (by decide))) =
        .ok (.number (.int 42 (by decide))) ∧
      (∀ n : Int, half.toRat ≠ n) ∧
      tally.coerce (.number (.double half (by decide))) =
        .error (.notWhole (.double half (by decide))) := by
  obtain ⟨_, whole, other, _⟩ := coerce_number_exact tally rfl
  have fits : FitsSigned 42 := by decide
  have value : fortyTwo.toRat = (42 : Int) := (Double.toInt?_eq_some_iff.1 (by decide)).2
  have parted : half.toInt? = none := by decide
  have never : ∀ n : Int, half.toRat ≠ n := by
    intro n same
    rw [Double.toInt?_eq_some_iff.2 ⟨by decide, same⟩] at parted
    cases parted
  exact ⟨rfl, fits, value, (whole fortyTwo _ 42 fits value).2 (by decide), never,
    other half _ fun n _ _ => never n⟩

/-- The double `-2 ^ 63`. -/
def least : Double := ⟨0xC3E0000000000000⟩

/-- The least integer of 64 bits is accepted as it is, and refused as a double. -/
theorem coerce_number_least_refused :
    FitsSigned (-9223372036854775808) ∧ least.toRat = (-9223372036854775808 : Int) ∧
      tally.coerce (.number (.int (-9223372036854775808) (by decide))) =
        .ok (.number (.int (-9223372036854775808) (by decide))) ∧
      tally.coerce (.number (.double least (by decide))) =
        .error (.notWhole (.double least (by decide))) :=
  ⟨by decide, (Double.toInt?_eq_some_iff.1 (by decide)).2, rfl, rfl⟩

end FieldSchema

end FilterQuery

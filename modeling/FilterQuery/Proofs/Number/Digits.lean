import FilterQuery.Number.Decimal
import Mathlib.Algebra.Group.Nat.Defs
import Mathlib.Data.List.Basic
import Mathlib.Data.List.Induction

/-!
# Runs of digits

A number that is padded with zeros is a run of digits with the same value. Its
length is the width it was padded to, unless it has more digits.
-/

namespace FilterQuery

/-- At least one decimal digit, and nothing else. -/
structure IsDigits (ds : List Char) : Prop where
  ne_nil : ds ≠ []
  isDigit : ∀ c ∈ ds, c.isDigit = true

@[simp]
theorem isDigits_decimalDigits (n : Nat) : IsDigits (decimalDigits n) where
  ne_nil := Nat.toDigits_ne_nil
  isDigit _ hc := Nat.isDigit_of_mem_toDigits (by decide) (by decide) hc

@[simp]
theorem digitsValue_decimalDigits (n : Nat) : digitsValue (decimalDigits n) = n :=
  Nat.ofDigitChars_ten_toDigits

theorem digitCount_le_iff {n width : Nat} (h : 0 < width) :
    digitCount n ≤ width ↔ n < 10 ^ width :=
  Nat.length_toDigits_le_iff (by decide) h

theorem digitCount_bounds {n : Nat} (positive : n ≠ 0) :
    10 ^ (digitCount n - 1) ≤ n ∧ n < 10 ^ digitCount n := by
  have some : 0 < digitCount n := List.length_pos_iff.2 (isDigits_decimalDigits n).ne_nil
  refine ⟨?_, (digitCount_le_iff some).1 (Nat.le_refl _)⟩
  rcases Nat.eq_zero_or_pos (digitCount n - 1) with one | more
  · rw [one]
    exact Nat.pos_of_ne_zero positive
  · refine Nat.le_of_not_lt fun less => ?_
    have := (digitCount_le_iff more).2 less
    omega

theorem decimalDigits_mul_ten_pow {n : Nat} (positive : 0 < n) (k : Nat) :
    decimalDigits (n * 10 ^ k) = decimalDigits n ++ List.replicate k '0' := by
  induction k with
  | zero => simp
  | succ k ih =>
    have more : n * 10 ^ (k + 1) = 10 * (n * 10 ^ k) + 0 := by
      rw [Nat.pow_succ', Nat.mul_left_comm, Nat.add_zero]
    have step := Nat.toDigits_append_toDigits (b := 10) (d := 0) (by decide)
      (Nat.mul_pos positive (Nat.pow_pos (n := k) (show 0 < 10 by decide))) (by decide)
    rw [List.replicate_succ', ← List.append_assoc, ← ih, more]
    exact step.symm

@[simp]
theorem digitsValue_concat (ds : List Char) (c : Char) :
    digitsValue (ds ++ [c]) = 10 * digitsValue ds + (c.toNat - '0'.toNat) := by
  rw [digitsValue, List.foldl_append]
  rfl

theorem digitsValue_lt {ds : List Char} (digit : ∀ c ∈ ds, c.isDigit = true) :
    digitsValue ds < 10 ^ ds.length := by
  induction ds using List.reverseRecOn with
  | nil => decide
  | append_singleton ds c ih =>
    have last := digit c (by simp)
    simp only [Char.isDigit, ge_iff_le, Bool.and_eq_true, decide_eq_true_eq] at last
    have high : c.toNat ≤ 57 := last.2
    have front := ih fun d hd => digit d (by simp [hd])
    have zero : '0'.toNat = 48 := rfl
    rw [digitsValue_concat, List.length_append, List.length_singleton, Nat.pow_succ]
    omega

theorem digitsValue_append (ds es : List Char) :
    digitsValue (ds ++ es) = digitsValue ds * 10 ^ es.length + digitsValue es := by
  induction es using List.reverseRecOn with
  | nil => simp [digitsValue]
  | append_singleton es c ih =>
    rw [← List.append_assoc, digitsValue_concat, digitsValue_concat, ih, List.length_append,
      List.length_singleton, Nat.pow_succ, Nat.mul_add, Nat.add_assoc, Nat.mul_left_comm,
      Nat.mul_comm 10]

/-- Runs of digits of one length with the same value are the same. -/
theorem eq_of_digitsValue_eq {ds es : List Char} (hds : ∀ c ∈ ds, c.isDigit = true)
    (hes : ∀ c ∈ es, c.isDigit = true) (length : ds.length = es.length)
    (value : digitsValue ds = digitsValue es) : ds = es := by
  induction ds using List.reverseRecOn generalizing es with
  | nil => exact (List.length_eq_zero_iff.1 length.symm).symm
  | append_singleton ds c ih =>
    cases es using List.reverseRecOn with
    | nil => simp at length
    | append_singleton es d =>
      have last := hds c (by simp)
      have last' := hes d (by simp)
      simp only [Char.isDigit, ge_iff_le, Bool.and_eq_true, decide_eq_true_eq] at last last'
      have low : 48 ≤ c.toNat ∧ 48 ≤ d.toNat := ⟨last.1, last'.1⟩
      have high : c.toNat ≤ 57 ∧ d.toNat ≤ 57 := ⟨last.2, last'.2⟩
      have zero : '0'.toNat = 48 := rfl
      rw [digitsValue_concat, digitsValue_concat] at value
      have same : c = d := Char.toNat_inj.1 (by omega)
      have front : ds = es :=
        ih (fun c hc => hds c (by simp [hc])) (fun c hc => hes c (by simp [hc]))
          (by simpa using length) (by omega)
      rw [same, front]

/-! ## Padding -/

theorem toList_zeroPadded (width n : Nat) :
    (zeroPadded width n).toList =
      List.replicate (width - digitCount n) '0' ++ decimalDigits n :=
  String.toList_ofList

@[simp]
theorem isDigits_zeroPadded (width n : Nat) : IsDigits (zeroPadded width n).toList where
  ne_nil := by simp [toList_zeroPadded, (isDigits_decimalDigits n).ne_nil]
  isDigit c hc := by
    rw [toList_zeroPadded, List.mem_append] at hc
    rcases hc with zero | digit
    · obtain rfl := List.eq_of_mem_replicate zero
      decide
    · exact (isDigits_decimalDigits n).isDigit c digit

@[simp]
theorem digitsValue_replicate_append (count : Nat) (ds : List Char) :
    digitsValue (List.replicate count '0' ++ ds) = digitsValue ds := by
  induction count with
  | zero => rfl
  | succ count ih => exact ih

@[simp]
theorem digitsValue_replicate_zero (count : Nat) :
    digitsValue (List.replicate count '0') = 0 := by
  have zeros := digitsValue_replicate_append count []
  rw [List.append_nil] at zeros
  exact zeros

@[simp]
theorem digitsValue_zeroPadded (width n : Nat) :
    digitsValue (zeroPadded width n).toList = n := by
  rw [toList_zeroPadded, digitsValue_replicate_append, digitsValue_decimalDigits]

@[simp]
theorem length_zeroPadded {width n : Nat} (positive : 0 < width) (h : n < 10 ^ width) :
    (zeroPadded width n).toList.length = width := by
  have fits : digitCount n ≤ width := (digitCount_le_iff positive).2 h
  rw [toList_zeroPadded, List.length_append, List.length_replicate, ← digitCount]
  omega

/-- The digits of a number that is padded to two places. -/
theorem toList_zeroPadded_two {n : Nat} (h : n < 100) :
    ∃ a b : Char, (zeroPadded 2 n).toList = [a, b] ∧ a.isDigit = true ∧ b.isDigit = true ∧
      10 * (a.toNat - '0'.toNat) + (b.toNat - '0'.toNat) = n := by
  have length := length_zeroPadded (show 0 < 2 by decide) h
  obtain ⟨a, b, two⟩ := List.length_eq_two.1 length
  have digit := (isDigits_zeroPadded 2 n).isDigit
  have value := digitsValue_zeroPadded 2 n
  rw [two] at digit value
  refine ⟨a, b, two, digit a (by simp), digit b (by simp), ?_⟩
  rw [← value]
  simp [digitsValue]

end FilterQuery

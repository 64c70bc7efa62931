import FilterQuery.Proofs.Number.Exact
import FilterQuery.Proofs.Number.Shortest
import FilterQuery.Value

/-!
# The roundest number

Of the whole numbers that are rounded to one double, one has the most zeros at its end, or
is the nearest of those that have. Main statement: it is the number with which a double
beyond `2 ^ 54` is written, and there is only one.
-/

namespace FilterQuery

/-! ## Texts of whole numbers -/

theorem toString_natCast (n : Nat) : toString (n : Int) = String.ofList (decimalDigits n) := rfl

/-- Texts of integers that are the same are texts of the same integer. -/
theorem toString_int_injective {m n : Int} (h : toString m = toString n) : m = n := by
  have negative (k : Nat) : '-' ∉ decimalDigits k := fun mem =>
    absurd ((isDigits_decimalDigits k).isDigit _ mem) (by decide)
  have digits (k : Nat) : k.repr.toList = decimalDigits k := Nat.toList_repr
  have chars := congrArg String.toList h
  rw [Int.toString_eq_repr, Int.toString_eq_repr, Int.repr_eq_if, Int.repr_eq_if] at chars
  split at chars <;> split at chars
  · rw [digits, digits] at chars
    have := decimalDigits_injective chars
    omega
  · rw [digits, String.toList_append] at chars
    exact absurd (chars ▸ List.mem_append_left _ (by decide)) (negative m.toNat)
  · rw [digits, String.toList_append] at chars
    exact absurd (chars ▸ List.mem_append_left _ (by decide)) (negative n.toNat)
  · rw [String.toList_append, String.toList_append, digits, digits] at chars
    have := decimalDigits_injective (List.append_cancel_left chars)
    omega

namespace Decimal

/-- A decimal without a fraction is written like the whole number that it is. -/
theorem positional_natCast {c k : Nat} (positive : 0 < c) :
    (Decimal.mk c k).positional "" = toString ((c * 10 ^ k : Nat) : Int) := by
  rw [toString_natCast, decimalDigits_mul_ten_pow positive]
  simp [positional]

theorem exists_dropZeros_eq (fuel c k : Nat) (positive : 0 < c) :
    ∃ c' k' : Nat, dropZeros fuel ⟨c, k⟩ = ⟨c', k'⟩ ∧ c' * 10 ^ k' = c * 10 ^ k ∧ 0 < c' := by
  induction fuel generalizing c k with
  | zero => exact ⟨c, k, rfl, rfl, positive⟩
  | succ fuel ih =>
    simp only [dropZeros]
    split
    · next zero =>
      obtain ⟨tens, rfl⟩ := Nat.dvd_of_mod_eq_zero zero.2
      rw [Nat.mul_div_cancel_left _ (by decide)]
      obtain ⟨c', k', dropped, value, positive'⟩ := ih tens (k + 1) (by omega)
      refine ⟨c', k', dropped, ?_, positive'⟩
      rw [value, Nat.pow_succ', Nat.mul_left_comm, Nat.mul_assoc]
    · exact ⟨c, k, rfl, rfl, positive⟩

theorem positional_normal {c k : Nat} (positive : 0 < c) :
    (Decimal.mk c k).normal.positional "" = toString ((c * 10 ^ k : Nat) : Int) := by
  obtain ⟨c', k', dropped, value, positive'⟩ := exists_dropZeros_eq (digitCount c) c k positive
  rw [normal, if_neg (Nat.ne_of_gt positive), dropped, positional_natCast positive', value]

end Decimal

/-! ## Roundest numbers -/

namespace Double

/-- `n` is rounded to `d`, no number that is rounded to `d` has more zeros at its end, and of
those with as many zeros it is the nearest. -/
structure IsRoundest (d : Double) (n : Int) : Prop where
  ofInt_eq : ofInt n = d
  dvd : ∀ m, ofInt m = d → ∀ k : Nat, 10 ^ k ∣ m → 10 ^ k ∣ n
  distance_le : ∀ m, ofInt m = d → (∀ k : Nat, 10 ^ k ∣ n → 10 ^ k ∣ m) →
    |(n : ℚ) - d.toRat| ≤ |(m : ℚ) - d.toRat|

namespace IsCoarse

variable {d : Double}

theorem toRat_eq (coarse : IsCoarse d) : d.toRat = d.span.value := by
  have least := coarse.two_le
  have exponent : d.exponent.toNat = d.quarter + 2 := by
    rw [quarter]
    omega
  rw [toRat, coarse.positive, if_neg Bool.false_ne_true, one_mul,
    significand_mul_zpow_of_nonneg (by omega), exponent, powerOfTwo_eq, coarse.span_eq,
    Nat.cast_inj, Nat.pow_add']
  exact (Nat.mul_left_comm ..).trans (Nat.mul_assoc ..).symm

theorem distance_le_iff (coarse : IsCoarse d) {m n : Nat} :
    |((m : Int) : ℚ) - d.toRat| ≤ |((n : Int) : ℚ) - d.toRat| ↔
      ((m : Int) - d.span.value).natAbs ≤ ((n : Int) - d.span.value).natAbs := by
  have cast (k : Nat) : |((k : Int) : ℚ) - d.toRat| = (((k : Int) - d.span.value).natAbs : ℚ) := by
    rw [coarse.toRat_eq, Nat.cast_natAbs, Int.cast_abs, Int.cast_sub, Int.cast_natCast,
      Int.cast_natCast]
  rw [cast, cast, Nat.cast_le]

/-- The roundest number, in terms of the span. -/
theorem isRoundest_iff (coarse : IsCoarse d) {n : Int} : d.IsRoundest n ↔
    ∃ r : Nat, n = r ∧ d.span.Holds r ∧ (∀ m, d.span.Holds m → ∀ k, 10 ^ k ∣ m → 10 ^ k ∣ r) ∧
      ∀ m, d.span.Holds m → (∀ k, 10 ^ k ∣ r → 10 ^ k ∣ m) →
        ((r : Int) - d.span.value).natAbs ≤ ((m : Int) - d.span.value).natAbs := by
  have power (k m : Nat) : ((10 : Int) ^ k ∣ m) ↔ 10 ^ k ∣ m := by
    rw [← Int.natCast_dvd_natCast, Nat.cast_pow, Nat.cast_ofNat]
  constructor
  · rintro ⟨rounded, dvd, nearest⟩
    obtain ⟨r, rfl, held⟩ := coarse.ofInt_eq_iff.1 rounded
    refine ⟨r, rfl, held, fun m other k => ?_, fun m other coarser => ?_⟩
    · rw [← power, ← power]
      exact dvd m (coarse.ofInt_eq_iff.2 ⟨m, rfl, other⟩) k
    · rw [← coarse.distance_le_iff]
      refine nearest m (coarse.ofInt_eq_iff.2 ⟨m, rfl, other⟩) fun k => ?_
      rw [power, power]
      exact coarser k
  · rintro ⟨r, rfl, held, dvd, nearest⟩
    refine ⟨coarse.ofInt_eq_iff.2 ⟨r, rfl, held⟩, fun m rounded k => ?_,
      fun m rounded coarser => ?_⟩
    · obtain ⟨m, rfl, other⟩ := coarse.ofInt_eq_iff.1 rounded
      rw [power, power]
      exact dvd m other k
    · obtain ⟨m, rfl, other⟩ := coarse.ofInt_eq_iff.1 rounded
      rw [coarse.distance_le_iff]
      refine nearest m other fun k => ?_
      rw [← power, ← power]
      exact coarser k

/-- Halves of even multiples: what the span of a double allows as a tie of two points of a grid
is the value itself. -/
theorem dvd_value_of_dvd_two_mul (coarse : IsCoarse d) {k : Nat}
    (small : 10 ^ k ≤ 4 * 2 ^ d.quarter) (dvd : 10 ^ k ∣ 2 * d.span.value) :
    10 ^ k ∣ d.span.value := by
  have value : d.span.value = d.significand * 2 ^ (d.quarter + 2) := by
    rw [coarse.span_eq, Nat.pow_add', ← Nat.mul_assoc, Nat.mul_comm 4]
  have le : k ≤ d.quarter + 2 := by
    rw [← Nat.pow_le_pow_iff_right (show 1 < 2 by decide)]
    calc
      2 ^ k ≤ 10 ^ k := Nat.pow_le_pow_left (by decide) k
      _ ≤ 4 * 2 ^ d.quarter := small
      _ = 2 ^ (d.quarter + 2) := by rw [Nat.pow_add']
  have ten : 10 ^ k = 2 ^ k * 5 ^ k := by rw [← Nat.mul_pow]
  have two : 2 ^ k ∣ d.span.value := by
    rw [value]
    exact Nat.dvd_mul_left_of_dvd (Nat.pow_dvd_pow 2 le) _
  have five : 5 ^ k ∣ d.span.value := by
    have odd : Nat.Coprime (5 ^ k) 2 := Nat.Coprime.pow_left k (by decide)
    exact odd.dvd_of_dvd_mul_left (Nat.dvd_trans ⟨2 ^ k, by rw [ten, Nat.mul_comm]⟩ dvd)
  rw [ten]
  exact Nat.Coprime.mul_dvd_of_dvd_of_dvd (Nat.Coprime.pow k k (by decide)) two five

theorem isRoundest_of_isNearest (coarse : IsCoarse d) {k r : Nat} (nearest : d.span.IsNearest k r)
    (last : d.span.value < 10 * 10 ^ k ∨ ∀ m, d.span.Holds m → ¬10 ^ (k + 1) ∣ m) :
    d.IsRoundest r := by
  refine coarse.isRoundest_iff.2 ⟨r, rfl, nearest.holds, fun m held j dvd => ?_,
    fun m held coarser => nearest.le m held (coarser k nearest.dvd)⟩
  rcases Nat.lt_or_ge k j with more | fewer
  · rcases last with only | none
    · have point := Nat.dvd_trans (Nat.pow_dvd_pow 10 (Nat.le_of_lt more)) dvd
      rwa [← coarse.eq_of_dvd (coarse.quarter_lt only) held nearest.holds point nearest.dvd]
    · exact absurd (Nat.dvd_trans (Nat.pow_dvd_pow 10 more) dvd) (none m held)
  · exact Nat.dvd_trans (Nat.pow_dvd_pow 10 fewer) nearest.dvd

theorem eq_of_isNearest (coarse : IsCoarse d) {k r : Nat} (nearest : d.span.IsNearest k r)
    (last : d.span.value < 10 * 10 ^ k ∨ ∀ m, d.span.Holds m → ¬10 ^ (k + 1) ∣ m) {n : Int}
    (roundest : d.IsRoundest n) : n = r := by
  obtain ⟨n, rfl, held, dvd, le⟩ := coarse.isRoundest_iff.1 roundest
  have point := dvd r nearest.holds k nearest.dvd
  rcases last with only | none
  · rw [coarse.eq_of_dvd (coarse.quarter_lt only) held nearest.holds point nearest.dvd]
  have powers {m j : Nat} (held : d.span.Holds m) (dvd : 10 ^ j ∣ m) : j ≤ k :=
    Nat.le_of_not_lt fun more => none m held (Nat.dvd_trans (Nat.pow_dvd_pow 10 more) dvd)
  have closer := nearest.le n held point
  have farther := le r nearest.holds fun j dvd =>
    Nat.dvd_trans (Nat.pow_dvd_pow 10 (powers held dvd)) nearest.dvd
  rcases Nat.lt_or_ge (4 * 2 ^ d.quarter) (10 ^ k) with wide | narrow
  · rw [coarse.eq_of_dvd wide held nearest.holds point nearest.dvd]
  · -- a tie would make the value a point of the grid, and that is the nearest one
    have tie : n = r ∨ n + r = 2 * d.span.value := by omega
    rcases tie with rfl | tie
    · rfl
    · have middle := coarse.dvd_value_of_dvd_two_mul narrow (tie ▸ Nat.dvd_add point nearest.dvd)
      have whole := coarse.span_isWhole
      have value : d.span.Holds d.span.value :=
        ⟨Nat.le_of_lt whole.low_lt, Nat.le_of_lt whole.lt_high,
          fun _ => ⟨Nat.ne_of_gt whole.low_lt, Nat.ne_of_lt whole.lt_high⟩⟩
      have exact := nearest.le _ value middle
      omega

end IsCoarse

end Double

/-- A positive double beyond `2 ^ 54` is written as the roundest of the whole numbers that are
rounded to it. -/
theorem Value.exists_write_eq {d : Double} (coarse : d.IsCoarse) :
    ∃ r : Nat, doubleFormat.write d = toString (r : Int) ∧ ∀ n, d.IsRoundest n ↔ n = r := by
  obtain ⟨c, k, shortest, nearest, last⟩ := coarse.exists_shortest .up
  refine ⟨c * 10 ^ k, ?_, fun n => ⟨coarse.eq_of_isNearest nearest last, ?_⟩⟩
  · have ordinary : d.isNaN = false := by
      have finite : d.exponentField ≠ 2047 := of_decide_eq_true coarse.finite
      exact decide_eq_false fun special => finite special.1
    have positive : 0 < c := by
      refine Nat.pos_of_ne_zero ?_
      rintro rfl
      have low := nearest.holds.low
      have := coarse.span_low_pos
      omega
    simp only [DoubleFormat.write, ordinary, coarse.finite, coarse.positive, Bool.false_eq_true,
      if_false, if_true]
    change (d.shortest .up).positional "" = _
    rw [shortest, Decimal.positional_normal positive]
  · rintro rfl
    exact coarse.isRoundest_of_isNearest nearest last

end FilterQuery

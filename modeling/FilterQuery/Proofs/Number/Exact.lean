import FilterQuery.Json.Basic
import Mathlib.Algebra.Order.Field.Rat
import Mathlib.Algebra.Order.Field.Power
import Mathlib.Data.Rat.Cast.Order
import Mathlib.Tactic.Positivity

/-!
# The numbers that doubles denote

A finite double denotes the rational number `± significand · 2 ^ exponent`. Main
statement: `toInt?` gives an integer just if that is the number which is denoted.
-/

namespace FilterQuery

namespace Double

/-- The number that a finite double denotes. -/
def toRat (d : Double) : ℚ :=
  (if d.isNegative then -1 else 1) * d.significand * 2 ^ d.exponent

theorem powerOfTwo_eq (n : Nat) : powerOfTwo n = 2 ^ n := rfl

/-- The magnitude of a double with a whole unit in the last place. -/
theorem significand_mul_zpow_of_nonneg {d : Double} (h : 0 ≤ d.exponent) :
    (d.significand : ℚ) * 2 ^ d.exponent = (d.significand * powerOfTwo d.exponent.toNat : Nat) := by
  rw [powerOfTwo_eq, Nat.cast_mul, Nat.cast_pow, Nat.cast_ofNat, ← zpow_natCast,
    Int.toNat_of_nonneg h]

/-- The magnitude of a double whose unit in the last place is a fraction. -/
theorem significand_mul_zpow_of_neg {d : Double} (h : d.exponent < 0) :
    (d.significand : ℚ) * 2 ^ d.exponent =
      d.significand / (powerOfTwo (-d.exponent).toNat : Nat) := by
  have back : d.exponent = -((-d.exponent).toNat : Int) := by omega
  rw [powerOfTwo_eq, Nat.cast_pow, Nat.cast_ofNat, div_eq_mul_inv, ← zpow_natCast, ← zpow_neg,
    ← back]

/-- A quotient is whole just if the division leaves no rest. -/
theorem div_eq_natCast_iff {a b m : Nat} (positive : 0 < b) :
    (a : ℚ) / b = m ↔ a % b = 0 ∧ a / b = m := by
  have ne : (b : ℚ) ≠ 0 := Nat.cast_ne_zero.2 (Nat.ne_of_gt positive)
  rw [div_eq_iff ne, ← Nat.cast_mul, Nat.cast_inj]
  constructor
  · rintro rfl
    exact ⟨Nat.mul_mod_left m b, Nat.mul_div_cancel m positive⟩
  · rintro ⟨whole, rfl⟩
    exact (Nat.div_mul_cancel (Nat.dvd_of_mod_eq_zero whole)).symm

/-- The whole number that a double has as its magnitude, if it has one. -/
def magnitude? (d : Double) : Option Nat :=
  if 0 ≤ d.exponent then some (d.significand * powerOfTwo d.exponent.toNat)
  else if d.significand % powerOfTwo (-d.exponent).toNat = 0 then
    some (d.significand / powerOfTwo (-d.exponent).toNat)
  else none

theorem toInt?_eq (d : Double) : d.toInt? =
    if d.isFinite then d.magnitude?.map fun m : Nat => if d.isNegative then -(m : Int) else m
    else none := by
  have signed : ∀ magnitude : Option Nat,
      ((do let m ← magnitude; pure (m : Int)).map fun m => if d.isNegative then -m else m) =
        magnitude.map fun m : Nat => if d.isNegative then -(m : Int) else m := by
    intro magnitude
    cases magnitude <;> rfl
  exact if_congr Iff.rfl (signed _) rfl

theorem magnitude?_eq_some_iff {d : Double} {m : Nat} :
    d.magnitude? = some m ↔ (d.significand : ℚ) * 2 ^ d.exponent = m := by
  unfold magnitude?
  split
  · next whole =>
    rw [significand_mul_zpow_of_nonneg whole, Option.some.injEq, Nat.cast_inj]
  · next part =>
    have positive : 0 < powerOfTwo (-d.exponent).toNat := Nat.two_pow_pos _
    rw [significand_mul_zpow_of_neg (Int.not_le.1 part), div_eq_natCast_iff positive]
    split <;> simp_all

theorem toInt?_eq_some_iff {d : Double} {n : Int} :
    d.toInt? = some n ↔ d.isFinite = true ∧ d.toRat = n := by
  rw [toInt?_eq]
  cases d.isFinite with
  | false => simp
  | true =>
    simp only [if_true, Option.map_eq_some_iff, magnitude?_eq_some_iff, true_and, toRat, mul_assoc]
    have size : (0 : ℚ) ≤ d.significand * 2 ^ d.exponent := by positivity
    cases d.isNegative with
    | true =>
      simp only [if_true, neg_one_mul]
      constructor
      · rintro ⟨m, magnitude, rfl⟩
        rw [magnitude, Int.cast_neg, Int.cast_natCast]
      · intro value
        have sign : n ≤ 0 := Int.cast_nonpos.1 (value ▸ neg_nonpos.2 size)
        refine ⟨n.natAbs, ?_, by omega⟩
        rw [Nat.cast_natAbs, Int.cast_abs, ← value, abs_neg, abs_of_nonneg size]
    | false =>
      simp only [Bool.false_eq_true, if_false, one_mul]
      constructor
      · rintro ⟨m, magnitude, rfl⟩
        rw [magnitude, Int.cast_natCast]
      · intro value
        have sign : 0 ≤ n := Int.cast_nonneg_iff.1 (value ▸ size)
        refine ⟨n.natAbs, ?_, by omega⟩
        rw [Nat.cast_natAbs, Int.cast_abs, ← value, abs_of_nonneg size]

end Double

/-- The number that a JSON number denotes. -/
def Number.toRat : Number → ℚ
  | .int n _ => n
  | .double d _ => d.toRat

end FilterQuery

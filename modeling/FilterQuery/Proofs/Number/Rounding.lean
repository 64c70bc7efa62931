import FilterQuery.Number.Double
import Mathlib.Algebra.Group.Nat.Defs
import Mathlib.Tactic.MkIffOfInductiveProp

/-!
# Rounding whole numbers

A whole number is rounded to 53 binary digits, a half to the even neighbour. Main
statement: the whole numbers that are rounded to a double beyond `2 ^ 54` are those that
its span holds.
-/

namespace FilterQuery.Double

theorem fractionCount_eq : fractionCount = 4503599627370496 := rfl

theorem magnitudeCount_eq : magnitudeCount = 9223372036854775808 := rfl

theorem infinityMagnitude_eq : infinityMagnitude = 9218868437227405312 := rfl

/-! ## Halves -/

/-- `q` is a whole number nearest to `a / b`, and the even one of two. -/
structure IsHalfEven (a b q : Nat) : Prop where
  low : 2 * (q * b) ≤ 2 * a + b
  high : 2 * a ≤ 2 * (q * b) + b
  odd : q % 2 = 1 → 2 * (q * b) ≠ 2 * a + b ∧ 2 * a ≠ 2 * (q * b) + b

theorem isHalfEven_roundHalfEven {a b : Nat} (positive : 0 < b) :
    IsHalfEven a b (roundHalfEven a b) := by
  have whole : a / b * b + a % b = a := Nat.div_add_mod' a b
  have rest := Nat.mod_lt a positive
  have next : (a / b + 1) * b = a / b * b + b := Nat.succ_mul _ b
  simp only [roundHalfEven]
  split
  · exact ⟨by omega, by omega, by omega⟩
  · split
    · next half =>
      rcases Nat.mod_two_eq_zero_or_one (a / b) with even | odd
      · rw [even, Nat.add_zero]
        exact ⟨by omega, by omega, by omega⟩
      · rw [odd]
        exact ⟨by omega, by omega, by omega⟩
    · exact ⟨by omega, by omega, by omega⟩

theorem IsHalfEven.le {a b p q : Nat} (positive : 0 < b) (hp : IsHalfEven a b p)
    (hq : IsHalfEven a b q) : p ≤ q := by
  refine Nat.le_of_not_lt fun less => ?_
  have apart : q * b + b ≤ p * b := by
    rw [← Nat.succ_mul]
    exact Nat.mul_le_mul_right b (by omega)
  have low := hp.low
  have high := hq.high
  -- `a / b` is halfway between them, so both are even and they are neighbours
  have next : p * b = (q + 1) * b := by
    rw [Nat.succ_mul]
    omega
  have neighbours := Nat.eq_of_mul_eq_mul_right positive next
  have evenP := hp.odd
  have evenQ := hq.odd
  omega

theorem roundHalfEven_eq_iff {a b q : Nat} (positive : 0 < b) :
    roundHalfEven a b = q ↔ IsHalfEven a b q := by
  have rounded := isHalfEven_roundHalfEven (a := a) positive
  constructor
  · rintro rfl
    exact rounded
  · intro other
    exact Nat.le_antisymm (rounded.le positive other) (other.le positive rounded)

theorem roundHalfEven_bounds {a b low high : Nat} (positive : 0 < b) (least : low * b ≤ a)
    (greatest : a ≤ high * b) : low ≤ roundHalfEven a b ∧ roundHalfEven a b ≤ high := by
  obtain ⟨lower, upper, odd⟩ := isHalfEven_roundHalfEven (a := a) positive
  generalize roundHalfEven a b = q at *
  constructor
  · refine Nat.le_of_not_lt fun less => ?_
    have : q * b + b ≤ low * b := by
      rw [← Nat.succ_mul]
      exact Nat.mul_le_mul_right b (by omega)
    omega
  · refine Nat.le_of_not_lt fun more => ?_
    have : high * b + b ≤ q * b := by
      rw [← Nat.succ_mul]
      exact Nat.mul_le_mul_right b (by omega)
    omega

/-! ## Bit patterns -/

theorem bits_eq {d : Double} (positive : d.isNegative = false) :
    d.bits.toNat = d.exponentField * fractionCount + d.fractionField := by
  have small : ¬magnitudeCount ≤ d.bits.toNat := of_decide_eq_false positive
  rw [magnitudeCount_eq] at small
  simp only [exponentField, fractionField, fractionCount_eq]
  omega

theorem fractionField_lt (d : Double) : d.fractionField < fractionCount :=
  Nat.mod_lt _ (by decide)

theorem bits_ofMagnitude (negative : Bool) (magnitude : Nat) :
    (ofMagnitude negative magnitude).bits.toNat =
      (if negative then magnitudeCount else 0) + min magnitude infinityMagnitude := by
  have small : min magnitude infinityMagnitude ≤ infinityMagnitude := Nat.min_le_right _ _
  rw [infinityMagnitude_eq] at small
  cases negative <;>
    simp only [ofMagnitude, if_true, Bool.false_eq_true, if_false, UInt64.toNat_ofNat',
      magnitudeCount_eq, infinityMagnitude_eq] at small ⊢ <;> omega

/-- A finite double that is not negative is the double of one magnitude. -/
theorem ofMagnitude_eq_iff {d : Double} (positive : d.isNegative = false)
    (finite : d.isFinite = true) (negative : Bool) (magnitude : Nat) :
    ofMagnitude negative magnitude = d ↔ negative = false ∧ magnitude = d.bits.toNat := by
  have bits := bits_ofMagnitude negative magnitude
  have pattern := bits_eq positive
  have fraction := d.fractionField_lt
  have field : d.exponentField < 2048 := Nat.mod_lt _ (by decide)
  have ordinary : d.exponentField ≠ 2047 := of_decide_eq_true finite
  rw [infinityMagnitude_eq, magnitudeCount_eq] at bits
  rw [fractionCount_eq] at pattern fraction
  have same : ofMagnitude negative magnitude = d ↔
      (ofMagnitude negative magnitude).bits.toNat = d.bits.toNat := by
    rw [UInt64.toNat_inj]
    exact ⟨congrArg _, fun h => by cases d; exact congrArg Double.mk h⟩
  rw [same, bits]
  cases negative <;> simp <;> omega

/-! ## Whole numbers -/

/-- The 53 leading binary digits of `n`, rounded. -/
def leadingBits (n : Nat) : Nat :=
  roundHalfEven (scaled n 1 ((n.log2 : Int) - 52)).1 (scaled n 1 ((n.log2 : Int) - 52)).2

theorem scaled_of_nonneg {num den : Nat} {e : Int} (h : 0 ≤ e) :
    scaled num den e = (num, den * 2 ^ e.toNat) :=
  if_pos h

theorem scaled_of_neg {num den : Nat} {e : Int} (h : e < 0) :
    scaled num den e = (num * 2 ^ (-e).toNat, den) :=
  if_neg (Int.not_le.2 h)

/-- In units of `2 ^ e` a number with the leading bit `L` has the leading bit `L - e`. -/
theorem scaled_bounds {n : Nat} (positive : n ≠ 0) {e : Int} {k : Nat}
    (h : (n.log2 : Int) - e = k) :
    0 < (scaled n 1 e).2 ∧ 2 ^ k * (scaled n 1 e).2 ≤ (scaled n 1 e).1 ∧
      (scaled n 1 e).1 < 2 ^ (k + 1) * (scaled n 1 e).2 := by
  have low := Nat.log2_self_le positive
  have high := Nat.lt_log2_self (n := n)
  rcases Int.lt_or_le e 0 with fine | coarse
  · rw [scaled_of_neg fine]
    have size : k = n.log2 + (-e).toNat := by omega
    have unit := Nat.two_pow_pos (-e).toNat
    subst size
    refine ⟨Nat.one_pos, ?_, ?_⟩
    · rw [Nat.pow_add, Nat.mul_one]
      exact Nat.mul_le_mul_right _ low
    · rw [Nat.mul_one, Nat.add_right_comm, Nat.pow_add]
      exact Nat.mul_lt_mul_of_pos_right high unit
  · rw [scaled_of_nonneg coarse]
    have size : n.log2 = k + e.toNat := by omega
    rw [size] at low high
    rw [Nat.one_mul, ← Nat.pow_add, ← Nat.pow_add, Nat.add_right_comm]
    exact ⟨Nat.two_pow_pos _, low, high⟩

theorem roundingExponent_one {n : Nat} (positive : n ≠ 0) :
    roundingExponent n 1 = (n.log2 : Int) - 52 := by
  obtain ⟨unit, low, -⟩ := scaled_bounds positive
    (show (n.log2 : Int) - ((n.log2 : Int) - 53) = (53 : Nat) by omega)
  have least : max ((n.log2 : Int) - (1 : Nat).log2 - 53) (-1074) = (n.log2 : Int) - 53 := by
    have one : Nat.log2 1 = 0 := by decide
    omega
  have large := (Nat.le_div_iff_mul_le unit).2 low
  have limit : 2 * fractionCount = 2 ^ 53 := rfl
  simp only [roundingExponent, least, limit, if_neg (Nat.not_lt.2 large)]
  omega

theorem ofInt_natCast {n : Nat} (positive : n ≠ 0) : ofInt n =
    ofMagnitude false ((n.log2 + 1022) * fractionCount + leadingBits n) := by
  have sign : decide ((n : Int) < 0) = false := decide_eq_false (by omega)
  have field : ((n.log2 : Int) - 52 + 1074).toNat = n.log2 + 1022 := by omega
  simp [ofInt, ofRatio, sign, if_neg positive, roundingExponent_one positive, field, leadingBits]

theorem leadingBits_bounds {n : Nat} (positive : n ≠ 0) :
    2 ^ 52 ≤ leadingBits n ∧ leadingBits n ≤ 2 ^ 53 := by
  obtain ⟨unit, low, high⟩ := scaled_bounds positive
    (show (n.log2 : Int) - ((n.log2 : Int) - 52) = (52 : Nat) by omega)
  exact roundHalfEven_bounds unit low (Nat.le_of_lt high)

/-- A number with more than 53 binary digits is rounded to a multiple of a power of two. -/
theorem leadingBits_eq_iff {n q k : Nat} (large : n.log2 = k + 52) :
    leadingBits n = q ↔ IsHalfEven n (2 ^ k) q := by
  have coarse : (n.log2 : Int) - 52 = k := by omega
  rw [leadingBits, coarse, scaled_of_nonneg (Int.natCast_nonneg k), Int.toNat_natCast, Nat.one_mul]
  exact roundHalfEven_eq_iff (Nat.two_pow_pos k)

theorem ofInt_negSucc (n : Nat) :
    ∃ magnitude, ofInt (Int.negSucc n) = ofMagnitude true magnitude := by
  have sign : decide (Int.negSucc n < 0) = true := decide_eq_true (Int.negSucc_lt_zero n)
  simp only [ofInt, ofRatio, sign, if_neg (show (Int.negSucc n).natAbs ≠ 0 by omega)]
  exact ⟨_, rfl⟩

/-- The whole numbers that are rounded to a double, by the bits of its magnitude. -/
theorem ofInt_eq_iff_bits {d : Double} (positive : d.isNegative = false)
    (finite : d.isFinite = true) (nonzero : d.bits.toNat ≠ 0) {m : Int} : ofInt m = d ↔
      ∃ n : Nat, m = n ∧ n ≠ 0 ∧
        (n.log2 + 1022) * fractionCount + leadingBits n = d.bits.toNat := by
  cases m with
  | ofNat n =>
    rcases Nat.eq_zero_or_pos n with rfl | some
    · have zero : ofInt (Int.ofNat 0) = ofMagnitude false 0 := rfl
      rw [zero, ofMagnitude_eq_iff positive finite]
      constructor
      · rintro ⟨-, none⟩
        exact absurd none.symm nonzero
      · rintro ⟨n, same, some, -⟩
        exact absurd (Int.ofNat_inj.1 same).symm some
    · have ne := Nat.ne_of_gt some
      rw [Int.ofNat_eq_natCast, ofInt_natCast ne, ofMagnitude_eq_iff positive finite]
      constructor
      · rintro ⟨-, bits⟩
        exact ⟨n, rfl, ne, bits⟩
      · rintro ⟨k, same, -, bits⟩
        obtain rfl := Int.ofNat_inj.1 same
        exact ⟨rfl, bits⟩
  | negSucc n =>
    obtain ⟨magnitude, below⟩ := ofInt_negSucc n
    rw [below, ofMagnitude_eq_iff positive finite]
    simp

/-! ## Spans with whole ends -/

/-- The whole numbers that a span holds, if its ends are whole. -/
@[mk_iff]
structure Span.Holds (s : Span) (n : Nat) : Prop where
  low : s.low ≤ n
  high : n ≤ s.high
  inside : s.closed = false → n ≠ s.low ∧ n ≠ s.high

/-- A positive double whose unit in the last place is a multiple of four: it is a whole number,
and so are the ends of its span. -/
structure IsCoarse (d : Double) : Prop where
  positive : d.isNegative = false
  finite : d.isFinite = true
  two_le : 2 ≤ d.exponent

/-- The exponent of a quarter of the unit in the last place. -/
def quarter (d : Double) : Nat :=
  (d.exponent - 2).toNat

namespace IsCoarse

variable {d : Double} {n : Nat}

theorem exponentField_eq (coarse : IsCoarse d) : d.exponentField = d.quarter + 1077 := by
  have least := coarse.two_le
  rw [quarter]
  rw [exponent] at least ⊢
  split at least <;> split <;> omega

theorem significand_eq (coarse : IsCoarse d) :
    d.significand = fractionCount + d.fractionField :=
  if_neg (by rw [coarse.exponentField_eq]; omega)

theorem significand_bounds (coarse : IsCoarse d) :
    2 ^ 52 ≤ d.significand ∧ d.significand < 2 ^ 53 := by
  have fraction := d.fractionField_lt
  rw [fractionCount_eq] at fraction
  rw [coarse.significand_eq, fractionCount_eq]
  omega

theorem span_eq (coarse : IsCoarse d) : d.span =
    { low := (4 * d.significand - if d.significand = 2 ^ 52 then 1 else 2) * 2 ^ d.quarter
      value := 4 * d.significand * 2 ^ d.quarter
      high := (4 * d.significand + 2) * 2 ^ d.quarter
      denominator := 1
      closed := decide (d.significand % 2 = 0) } := by
  have whole : (2 - d.exponent).toNat = 0 := by
    have := coarse.two_le
    omega
  have field : 1 < d.exponentField := by
    rw [coarse.exponentField_eq]
    omega
  simp only [span, whole, field, and_true]
  rfl

/-- The ends of a span are two quarters of a unit from the value. The lower one is only one
quarter away where the exponent changes, and they belong to even significands. -/
theorem span_holds_iff (coarse : IsCoarse d) : d.span.Holds n ↔
    4 * (d.significand * 2 ^ d.quarter) ≤
        n + (if d.significand = 2 ^ 52 then 1 else 2) * 2 ^ d.quarter ∧
      n ≤ 4 * (d.significand * 2 ^ d.quarter) + 2 * 2 ^ d.quarter ∧
      (d.significand % 2 = 1 →
        4 * (d.significand * 2 ^ d.quarter) ≠ n + 2 * 2 ^ d.quarter ∧
        n ≠ 4 * (d.significand * 2 ^ d.quarter) + 2 * 2 ^ d.quarter) := by
  have large := coarse.significand_bounds
  rw [coarse.span_eq, Span.holds_iff]
  simp only [Nat.sub_mul, Nat.add_mul, Nat.mul_assoc, decide_eq_false_iff_not]
  generalize d.significand = s at *
  generalize 2 ^ d.quarter = u at *
  have least := Nat.mul_le_mul_right u large.1
  split
  · omega
  · omega

/-- How the bits of a rounded number agree with those of a double: digit for digit, or the
number is rounded up to the least significand of the next exponent. -/
theorem bits_eq_iff (coarse : IsCoarse d) (positive : n ≠ 0) :
    (n.log2 + 1022) * fractionCount + leadingBits n = d.bits.toNat ↔
      n.log2 = d.quarter + 54 ∧ leadingBits n = d.significand ∨
      d.significand = 2 ^ 52 ∧ n.log2 = d.quarter + 53 ∧ leadingBits n = 2 ^ 53 := by
  have bounds := leadingBits_bounds positive
  have large := coarse.significand_bounds
  have pattern := bits_eq coarse.positive
  have field := coarse.exponentField_eq
  have significand := coarse.significand_eq
  rw [fractionCount_eq] at *
  omega

theorem log2_eq_quarter_add_iff (positive : n ≠ 0) (k : Nat) : n.log2 = d.quarter + k ↔
    2 ^ k * 2 ^ d.quarter ≤ n ∧ n < 2 * 2 ^ k * 2 ^ d.quarter := by
  rw [Nat.log2_eq_iff positive, Nat.pow_succ', Nat.pow_add, Nat.mul_comm (2 ^ d.quarter),
    Nat.mul_assoc]

/-- The numbers whose bits are rounded to those of a double are those in its span. -/
theorem bits_eq_iff_holds (coarse : IsCoarse d) (positive : n ≠ 0) :
    (n.log2 + 1022) * fractionCount + leadingBits n = d.bits.toNat ↔ d.span.Holds n := by
  have large := coarse.significand_bounds
  have unit := Nat.two_pow_pos d.quarter
  have two : 2 ^ (d.quarter + 1) = 2 * 2 ^ d.quarter := Nat.pow_succ'
  have four : 2 ^ (d.quarter + 2) = 4 * 2 ^ d.quarter := Nat.pow_add' ..
  have same : n.log2 = d.quarter + 54 → (leadingBits n = d.significand ↔
      IsHalfEven n (4 * 2 ^ d.quarter) d.significand) := fun length => by
    rw [← four]
    exact leadingBits_eq_iff (by omega)
  have next : n.log2 = d.quarter + 53 → (leadingBits n = 2 ^ 53 ↔
      IsHalfEven n (2 * 2 ^ d.quarter) (2 ^ 53)) := fun length => by
    rw [← two]
    exact leadingBits_eq_iff (by omega)
  rw [coarse.bits_eq_iff positive, and_congr_right same, and_congr_right next,
    log2_eq_quarter_add_iff positive, log2_eq_quarter_add_iff positive, coarse.span_holds_iff]
  -- both sides are bounds on `n` in multiples of a quarter
  generalize d.significand = s at *
  generalize 2 ^ d.quarter = u at *
  have least := Nat.mul_le_mul_right u large.1
  have greatest := Nat.mul_le_mul_right u (Nat.succ_le_of_lt large.2)
  rw [Nat.succ_mul] at greatest
  have quadruple : s * (4 * u) = 4 * (s * u) := Nat.mul_left_comm ..
  rcases Nat.eq_or_lt_of_le large.1 with rfl | more
  · rw [if_pos rfl]
    constructor
    · rintro (⟨size, low, high, -⟩ | ⟨-, size, low, high, -⟩) <;>
        exact ⟨by omega, by omega, by omega⟩
    · rintro ⟨low, high, -⟩
      rcases Nat.lt_or_ge n (2 ^ 54 * u) with below | above
      · exact .inr ⟨rfl, ⟨by omega, by omega⟩, by omega, by omega, by omega⟩
      · exact .inl ⟨⟨above, by omega⟩, by omega, by omega, by omega⟩
  · have ne : s ≠ 2 ^ 52 := Nat.ne_of_gt more
    have next := Nat.mul_le_mul_right u (Nat.succ_le_of_lt more)
    rw [Nat.succ_mul] at next
    rw [if_neg ne]
    constructor
    · rintro (⟨size, low, high, odd⟩ | ⟨power, -⟩)
      · rw [quadruple] at low high odd
        refine ⟨by omega, by omega, fun h => ?_⟩
        have := odd h
        omega
      · exact absurd power ne
    · rintro ⟨low, high, odd⟩
      refine .inl ⟨⟨by omega, by omega⟩, by omega, by omega, fun h => ?_⟩
      have := odd h
      omega

/-- The ends of a span, in quarters of a unit. -/
theorem span_bounds (coarse : IsCoarse d) :
    d.span.high = d.span.value + 2 * 2 ^ d.quarter ∧
      (d.span.low + 2 * 2 ^ d.quarter = d.span.value ∨
        d.span.low + 2 ^ d.quarter = d.span.value ∧ d.span.value = 2 ^ 54 * 2 ^ d.quarter) ∧
      2 ^ 54 * 2 ^ d.quarter ≤ d.span.value ∧ d.span.value < 2 ^ 55 * 2 ^ d.quarter := by
  have bounds := coarse.significand_bounds
  have least := Nat.mul_le_mul_right (2 ^ d.quarter) bounds.1
  have greatest := Nat.mul_lt_mul_of_pos_right bounds.2 (Nat.two_pow_pos d.quarter)
  simp only [coarse.span_eq, Nat.sub_mul, Nat.add_mul, Nat.mul_assoc, true_and]
  split
  · next power =>
    have same : d.significand * 2 ^ d.quarter = 2 ^ 52 * 2 ^ d.quarter := by rw [power]
    omega
  · omega

theorem span_low_pos (coarse : IsCoarse d) : 0 < d.span.low := by
  obtain ⟨-, low, least, -⟩ := coarse.span_bounds
  have unit := Nat.two_pow_pos d.quarter
  omega

/-- The whole numbers that are rounded to a double are those that its span holds. -/
theorem ofInt_eq_iff (coarse : IsCoarse d) {m : Int} :
    ofInt m = d ↔ ∃ n : Nat, m = n ∧ d.span.Holds n := by
  have field := coarse.exponentField_eq
  have pattern := bits_eq coarse.positive
  have nonzero : d.bits.toNat ≠ 0 := by
    rw [fractionCount_eq] at pattern
    omega
  rw [ofInt_eq_iff_bits coarse.positive coarse.finite nonzero]
  refine exists_congr fun n => and_congr_right fun _ => ?_
  constructor
  · rintro ⟨positive, bits⟩
    exact (coarse.bits_eq_iff_holds positive).1 bits
  · intro held
    have positive : n ≠ 0 := Nat.ne_of_gt (Nat.lt_of_lt_of_le coarse.span_low_pos held.low)
    exact ⟨positive, (coarse.bits_eq_iff_holds positive).2 held⟩

end IsCoarse

theorem isCoarse_ofInt {n : Nat} (least : 2 ^ 54 ≤ n) (greatest : n < 2 ^ 64) :
    IsCoarse (ofInt n) := by
  have positive : n ≠ 0 := by omega
  have length : 54 ≤ n.log2 := (Nat.le_log2 positive).2 least
  have limit : n.log2 < 64 := (Nat.log2_lt positive).2 greatest
  have bounds := leadingBits_bounds positive
  have bits := bits_ofMagnitude false ((n.log2 + 1022) * fractionCount + leadingBits n)
  rw [← ofInt_natCast positive, infinityMagnitude_eq, fractionCount_eq] at bits
  simp only [Bool.false_eq_true, if_false] at bits
  have field : n.log2 + 1023 ≤ (ofInt n).exponentField ∧
      (ofInt n).exponentField ≤ n.log2 + 1024 := by
    rw [exponentField, fractionCount_eq]
    omega
  refine ⟨decide_eq_false ?_, decide_eq_true ?_, ?_⟩
  · rw [magnitudeCount_eq]
    omega
  · omega
  · rw [exponent]
    omega

end FilterQuery.Double

import FilterQuery.Proofs.Number.Digits
import FilterQuery.Proofs.Number.Rounding

/-!
# The search for the shortest decimal

A double is written with the first decimal that is found in its span, on grids of powers
of ten from the coarsest on. Main statement: for a double beyond `2 ^ 54` one is found, it
is the point of its grid nearest to the value, and the span holds no point of a coarser
grid.
-/

namespace FilterQuery

namespace Double.Span

variable {s : Span} {tie : Tie} {k n : Nat}

/-- A span with whole ends, around its value. -/
structure IsWhole (s : Span) : Prop where
  denominator : s.denominator = 1
  low_lt : s.low < s.value
  lt_high : s.value < s.high

/-- `n` is a multiple of `10 ^ k` that the span holds, and there is none nearer to the value. -/
structure IsNearest (s : Span) (k n : Nat) : Prop where
  holds : s.Holds n
  dvd : 10 ^ k ∣ n
  le : ∀ m, s.Holds m → 10 ^ k ∣ m → ((n : Int) - s.value).natAbs ≤ ((m : Int) - s.value).natAbs

theorem gridPoint_eq (whole : s.IsWhole) (c k : Nat) : s.gridPoint c k = c * 10 ^ k := by
  rw [gridPoint, whole.denominator, Nat.mul_one, Int.toNat_natCast]
  rfl

theorem atScale_natCast (num k : Nat) : atScale num k = num := by
  have none : (-(k : Int)).toNat = 0 := by omega
  rw [atScale, none]
  exact Nat.mul_one num

theorem floorOnGrid_eq (whole : s.IsWhole) (k : Nat) : s.floorOnGrid k = s.value / 10 ^ k := by
  rw [floorOnGrid, atScale_natCast, whole.denominator, Nat.one_mul, Int.toNat_natCast]
  rfl

theorem contains_iff (whole : s.IsWhole) (c k : Nat) :
    s.contains c k = true ↔ s.Holds (c * 10 ^ k) := by
  rw [contains, gridPoint_eq whole, atScale_natCast, atScale_natCast, holds_iff]
  cases s.closed
  · simp
    omega
  · simp

theorem floor_le_lt_ceil (v k : Nat) :
    v / 10 ^ k * 10 ^ k ≤ v ∧ v < (v / 10 ^ k + 1) * 10 ^ k := by
  refine ⟨Nat.div_mul_le_self .., ?_⟩
  rw [Nat.mul_comm]
  exact Nat.lt_mul_div_succ v (Nat.pow_pos (by decide))

/-- The multiples of `10 ^ k` next to the value bound all others. -/
theorem le_floor_or_ceil_le {m : Nat} (h : 10 ^ k ∣ m) (v : Nat) :
    m ≤ v / 10 ^ k * 10 ^ k ∨ (v / 10 ^ k + 1) * 10 ^ k ≤ m := by
  obtain ⟨c, rfl⟩ := h
  rw [Nat.mul_comm (10 ^ k)]
  rcases Nat.lt_or_ge (v / 10 ^ k) c with above | below
  · exact .inr (Nat.mul_le_mul_right _ above)
  · exact .inl (Nat.mul_le_mul_right _ below)

theorem Holds.of_le_value (whole : s.IsWhole) {m : Nat} (held : s.Holds m) (le : m ≤ n)
    (below : n ≤ s.value) : s.Holds n where
  low := Nat.le_trans held.low le
  high := Nat.le_trans below (Nat.le_of_lt whole.lt_high)
  inside opened := by
    have := held.inside opened
    have := held.low
    have := whole.lt_high
    omega

theorem Holds.of_value_le (whole : s.IsWhole) {m : Nat} (held : s.Holds m) (above : s.value ≤ n)
    (le : n ≤ m) : s.Holds n where
  low := Nat.le_trans (Nat.le_of_lt whole.low_lt) above
  high := Nat.le_trans le held.high
  inside opened := by
    have := held.inside opened
    have := held.high
    have := whole.low_lt
    omega

theorem isNearest_floor (whole : s.IsWhole) (held : s.Holds (s.value / 10 ^ k * 10 ^ k))
    (nearer : s.Holds ((s.value / 10 ^ k + 1) * 10 ^ k) →
      s.value - s.value / 10 ^ k * 10 ^ k ≤ (s.value / 10 ^ k + 1) * 10 ^ k - s.value) :
    s.IsNearest k (s.value / 10 ^ k * 10 ^ k) where
  holds := held
  dvd := Nat.dvd_mul_left ..
  le m other point := by
    obtain ⟨below, above⟩ := floor_le_lt_ceil s.value k
    rcases le_floor_or_ceil_le point s.value with lower | upper
    · omega
    · have := nearer (other.of_value_le whole (Nat.le_of_lt above) upper)
      omega

theorem isNearest_ceil (whole : s.IsWhole) (held : s.Holds ((s.value / 10 ^ k + 1) * 10 ^ k))
    (nearer : s.Holds (s.value / 10 ^ k * 10 ^ k) →
      (s.value / 10 ^ k + 1) * 10 ^ k - s.value ≤ s.value - s.value / 10 ^ k * 10 ^ k) :
    s.IsNearest k ((s.value / 10 ^ k + 1) * 10 ^ k) where
  holds := held
  dvd := Nat.dvd_mul_left ..
  le m other point := by
    obtain ⟨below, above⟩ := floor_le_lt_ceil s.value k
    rcases le_floor_or_ceil_le point s.value with lower | upper
    · have := nearer (other.of_le_value whole lower below)
      omega
    · omega

/-- What the search on one grid finds: the nearest point of the grid, or that the span holds
none. -/
theorem nearestOnGrid_cases (whole : s.IsWhole) (tie : Tie) (k : Nat) :
    (∃ c, s.nearestOnGrid tie k = some ⟨c, k⟩ ∧ s.IsNearest k (c * 10 ^ k)) ∨
      s.nearestOnGrid tie k = none ∧ ∀ m, s.Holds m → ¬10 ^ k ∣ m := by
  have lower := contains_iff whole (s.value / 10 ^ k) k
  have upper := contains_iff whole (s.value / 10 ^ k + 1) k
  have floor := isNearest_floor (k := k) whole
  have ceil := isNearest_ceil (k := k) whole
  simp only [nearestOnGrid, floorOnGrid_eq whole, gridPoint_eq whole, atScale_natCast]
  cases hl : s.contains (s.value / 10 ^ k) k with
  | false =>
    have noLower : ¬s.Holds (s.value / 10 ^ k * 10 ^ k) := by rw [← lower, hl]; decide
    cases hu : s.contains (s.value / 10 ^ k + 1) k with
    | false =>
      have noUpper : ¬s.Holds ((s.value / 10 ^ k + 1) * 10 ^ k) := by rw [← upper, hu]; decide
      refine .inr ⟨rfl, fun m held point => ?_⟩
      obtain ⟨below, above⟩ := floor_le_lt_ceil s.value k
      rcases le_floor_or_ceil_le point s.value with below' | above'
      · exact noLower (held.of_le_value whole below' below)
      · exact noUpper (held.of_value_le whole (Nat.le_of_lt above) above')
    | true => exact .inl ⟨_, rfl, ceil (upper.1 hu) fun h => absurd h noLower⟩
  | true =>
    cases hu : s.contains (s.value / 10 ^ k + 1) k with
    | false =>
      have noUpper : ¬s.Holds ((s.value / 10 ^ k + 1) * 10 ^ k) := by rw [← upper, hu]; decide
      exact .inl ⟨_, rfl, floor (lower.1 hl) fun h => absurd h noUpper⟩
    | true =>
      refine .inl ⟨_, rfl, ?_⟩
      split
      · rw [if_pos rfl]
        exact ceil (upper.1 hu) fun _ => by omega
      · split
        · rw [if_neg Bool.false_ne_true]
          exact floor (lower.1 hl) fun _ => by omega
        · -- equally near: either will do
          cases tie with
          | up =>
            rw [if_pos rfl]
            exact ceil (upper.1 hu) fun _ => by omega
          | even =>
            cases decide (s.value / 10 ^ k % 2 = 1) with
            | true =>
              rw [if_pos rfl]
              exact ceil (upper.1 hu) fun _ => by omega
            | false =>
              rw [if_neg Bool.false_ne_true]
              exact floor (lower.1 hl) fun _ => by omega

theorem isNearest_of_nearestOnGrid_eq_some (whole : s.IsWhole) {r : Decimal}
    (h : s.nearestOnGrid tie k = some r) :
    ∃ c : Nat, r = ⟨c, k⟩ ∧ s.IsNearest k (c * 10 ^ k) := by
  rcases nearestOnGrid_cases whole tie k with ⟨c, found, nearest⟩ | ⟨none, -⟩
  · rw [found] at h
    exact ⟨c, (Option.some.inj h).symm, nearest⟩
  · rw [none] at h
    cases h

theorem not_dvd_of_nearestOnGrid_eq_none (whole : s.IsWhole) (h : s.nearestOnGrid tie k = none)
    {m : Nat} (held : s.Holds m) : ¬10 ^ k ∣ m := by
  rcases nearestOnGrid_cases whole tie k with ⟨c, found, -⟩ | ⟨-, none⟩
  · rw [found] at h
    cases h
  · exact none m held

end Double.Span

/-! ## All grids -/

theorem findSome?_range_eq_some {α : Type} {f : Nat → Option α} {n : Nat} {a : α}
    (h : (List.range n).findSome? f = some a) :
    ∃ i, i < n ∧ f i = some a ∧ ∀ j, j < i → f j = none := by
  obtain ⟨before, i, after, split, found, none⟩ := List.findSome?_eq_some_iff.1 h
  rw [List.range_eq_range', List.range'_eq_append_iff] at split
  obtain ⟨k, le, rfl, rest⟩ := split
  obtain ⟨rfl, some, -⟩ := List.range'_eq_cons_iff.1 rest.symm
  refine ⟨_, by omega, found, fun j less => none j ?_⟩
  rw [List.mem_range'_1]
  omega

namespace Double.IsCoarse

variable {d : Double} {n : Nat}

theorem span_isWhole (coarse : IsCoarse d) : d.span.IsWhole := by
  have large := coarse.significand_bounds
  have unit := Nat.two_pow_pos d.quarter
  rw [coarse.span_eq]
  refine ⟨rfl, ?_, ?_⟩
  · refine Nat.mul_lt_mul_of_pos_right ?_ unit
    split <;> omega
  · exact Nat.mul_lt_mul_of_pos_right (by omega) unit

theorem isZero_eq_false (coarse : IsCoarse d) : d.isZero = false := by
  have field := coarse.exponentField_eq
  exact decide_eq_false (by omega)

/-- The exponent of the leading decimal digit. -/
theorem leadingExponent_span (coarse : IsCoarse d) :
    ∃ top : Nat, d.span.leadingExponent = top ∧ 10 ^ top ≤ d.span.value ∧
      d.span.value < 10 * 10 ^ top := by
  have whole := coarse.span_isWhole
  have positive : d.span.value ≠ 0 := by
    have := whole.low_lt
    omega
  have some : 0 < digitCount d.span.value :=
    List.length_pos_iff.2 (isDigits_decimalDigits _).ne_nil
  obtain ⟨low, high⟩ := digitCount_bounds positive
  refine ⟨digitCount d.span.value - 1, ?_, low, ?_⟩
  · rw [Span.leadingExponent, whole.denominator, Nat.div_one, if_pos positive]
    omega
  · rwa [← Nat.pow_succ', Nat.succ_eq_add_one, Nat.sub_add_cancel some]

/-- A span holds only one point of a grid whose step is wider. -/
theorem eq_of_dvd (coarse : IsCoarse d) {step m n : Nat} (wide : 4 * 2 ^ d.quarter < step)
    (hm : d.span.Holds m) (hn : d.span.Holds n) (dvd : step ∣ m) (dvd' : step ∣ n) : m = n := by
  obtain ⟨high, low, -, -⟩ := coarse.span_bounds
  have le {m n : Nat} (hm : d.span.Holds m) (hn : d.span.Holds n) (dvd : step ∣ m)
      (dvd' : step ∣ n) : m ≤ n := by
    have upper := hm.high
    have lower := hn.low
    have near : m - n < step := by omega
    have := Nat.eq_zero_of_dvd_of_lt (Nat.dvd_sub dvd dvd') near
    omega
  exact Nat.le_antisymm (le hm hn dvd dvd') (le hn hm dvd' dvd)

/-- The grid of the leading digit is much wider than the span. -/
theorem quarter_lt (coarse : IsCoarse d) {step : Nat} (large : d.span.value < 10 * step) :
    4 * 2 ^ d.quarter < step := by
  obtain ⟨-, -, least, -⟩ := coarse.span_bounds
  omega

/-- The span is wider than the step of the sixteenth grid below that of the leading digit. -/
theorem exists_dvd (coarse : IsCoarse d) {k : Nat} (small : 10 ^ (k + 16) ≤ d.span.value) :
    ∃ m, d.span.Holds m ∧ 10 ^ k ∣ m := by
  obtain ⟨high, low, -, greatest⟩ := coarse.span_bounds
  obtain ⟨below, above⟩ := Span.floor_le_lt_ceil d.span.value k
  have next := Nat.add_one_mul (d.span.value / 10 ^ k) (10 ^ k)
  have width : 10000000000000000 * 10 ^ k ≤ d.span.value := by
    rw [Nat.pow_add'] at small
    exact small
  rcases Nat.lt_or_ge d.span.low (d.span.value / 10 ^ k * 10 ^ k) with inside | outside
  · exact ⟨d.span.value / 10 ^ k * 10 ^ k, ⟨by omega, by omega, fun _ => by omega⟩,
      Nat.dvd_mul_left ..⟩
  · exact ⟨(d.span.value / 10 ^ k + 1) * 10 ^ k, ⟨by omega, by omega, fun _ => by omega⟩,
      Nat.dvd_mul_left ..⟩

theorem sixteen_le (coarse : IsCoarse d) {top : Nat} (trailing : d.span.value < 10 * 10 ^ top) :
    16 ≤ top := by
  obtain ⟨-, -, least, -⟩ := coarse.span_bounds
  have unit := Nat.two_pow_pos d.quarter
  have bound : 10 ^ 16 < 10 ^ (top + 1) := by
    rw [Nat.pow_succ']
    omega
  have := (Nat.pow_lt_pow_iff_right (show 1 < 10 by decide)).1 bound
  omega

/-- The search comes to a grid with a point in the span, after grids without one. -/
theorem exists_search (coarse : IsCoarse d) (tie : Tie) {top : Nat} (digits : 16 ≤ top)
    (leading : 10 ^ top ≤ d.span.value) :
    ∃ c i : Nat, ((List.range 17).findSome? fun i : Nat =>
        d.span.nearestOnGrid tie ((top : Int) - i)) = some ⟨c, (top - i : Nat)⟩ ∧
      d.span.IsNearest (top - i) (c * 10 ^ (top - i)) ∧
      (i = 0 ∨ ∀ m, d.span.Holds m → ¬10 ^ (top - i + 1) ∣ m) := by
  have whole := coarse.span_isWhole
  have grid {i : Nat} (h : i < 17) : (top : Int) - i = (top - i : Nat) := by omega
  cases search : (List.range 17).findSome? fun i : Nat =>
      d.span.nearestOnGrid tie ((top : Int) - i) with
  | none =>
    have last := List.findSome?_eq_none_iff.1 search 16 (by simp)
    rw [grid (by decide)] at last
    have small : 10 ^ (top - 16 + 16) ≤ d.span.value := by rwa [Nat.sub_add_cancel digits]
    obtain ⟨m, held, dvd⟩ := coarse.exists_dvd small
    exact absurd dvd (Span.not_dvd_of_nearestOnGrid_eq_none whole last held)
  | some r =>
    obtain ⟨i, less, found, before⟩ := findSome?_range_eq_some search
    rw [grid less] at found
    obtain ⟨c, rfl, nearest⟩ := Span.isNearest_of_nearestOnGrid_eq_some whole found
    refine ⟨c, i, rfl, nearest, ?_⟩
    rcases Nat.eq_zero_or_pos i with first | later
    · exact .inl first
    · refine .inr fun m held => ?_
      have coarser := before (i - 1) (by omega)
      have step : top - (i - 1) = top - i + 1 := by omega
      rw [grid (by omega), step] at coarser
      exact Span.not_dvd_of_nearestOnGrid_eq_none whole coarser held

/-- The shortest decimal of a double is a multiple of `10 ^ k` nearest to its value, where no
multiple of `10 ^ (k + 1)` is in the span unless `k` is the exponent of the leading digit. -/
theorem exists_shortest (coarse : IsCoarse d) (tie : Tie) :
    ∃ c k : Nat, d.shortest tie = Decimal.normal ⟨c, k⟩ ∧ d.span.IsNearest k (c * 10 ^ k) ∧
      (d.span.value < 10 * 10 ^ k ∨ ∀ m, d.span.Holds m → ¬10 ^ (k + 1) ∣ m) := by
  obtain ⟨top, exponent, leading, trailing⟩ := coarse.leadingExponent_span
  obtain ⟨c, i, search, nearest, last⟩ :=
    coarse.exists_search tie (coarse.sixteen_le trailing) leading
  refine ⟨c, top - i, ?_, nearest, ?_⟩
  · simp [shortest, coarse.isZero_eq_false, exponent, List.findSome?_map, Function.comp_def, search]
  · rcases last with rfl | none
    · exact .inl trailing
    · exact .inr none

end Double.IsCoarse

end FilterQuery

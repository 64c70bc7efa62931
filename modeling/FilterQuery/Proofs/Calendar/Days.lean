import FilterQuery.Calendar.Timestamp
import FilterQuery.Proofs.Calendar.Dates
import Mathlib.Order.Monotone.Basic

/-!
# Counting days and minutes

The days of the calendar have consecutive numbers, and so have its minutes. Main
statements: a number determines its date, and a local time becomes the point in time
whose minute is the local one less the offset.
-/

namespace FilterQuery

namespace Date

/-! ## Days -/

/-- The days of the years before `year`, counted from the year 1 on: one more in every
fourth year, but of the full centuries only in every fourth. -/
def daysBeforeYear (year : Int) : Int :=
  365 * (year - 1) + (year - 1) / 4 - (year - 1) / 100 + (year - 1) / 400

/-- The days of a year before its month `month`. -/
def daysBeforeMonth (year : Int) : Nat → Nat
  | 0 | 1 => 0
  | month + 2 => daysBeforeMonth year (month + 1) + daysInMonth year (month + 1)

/-- The number of a day. The first day of the year 1 has the number 1. -/
def dayNumber (d : Date) : Int :=
  daysBeforeYear d.year + daysBeforeMonth d.year d.month + d.day

def daysInYear (year : Int) : Nat :=
  if isLeapYear year then 366 else 365

theorem daysBeforeYear_succ (year : Int) :
    daysBeforeYear (year + 1) = daysBeforeYear year + daysInYear year := by
  unfold daysBeforeYear daysInYear isLeapYear
  split
  · next leap =>
    rw [decide_eq_true_eq] at leap
    omega
  · next plain =>
    rw [decide_eq_true_eq] at plain
    omega

theorem daysBeforeYear_mono {y z : Int} (h : y ≤ z) : daysBeforeYear y ≤ daysBeforeYear z := by
  unfold daysBeforeYear
  omega

theorem daysBeforeMonth_one (year : Int) : daysBeforeMonth year 1 = 0 := rfl

theorem daysBeforeMonth_succ (year : Int) {month : Nat} (h : 1 ≤ month) :
    daysBeforeMonth year (month + 1) = daysBeforeMonth year month + daysInMonth year month := by
  obtain ⟨month, rfl⟩ := Nat.exists_eq_add_of_le' h
  rfl

theorem daysBeforeMonth_mono (year : Int) : Monotone (daysBeforeMonth year) := by
  refine monotone_nat_of_le_succ fun month => ?_
  cases month with
  | zero => exact Nat.le_refl 0
  | succ month => exact Nat.le_add_right _ _

/-- The months fill the year. -/
theorem daysBeforeMonth_thirteen (year : Int) : daysBeforeMonth year 13 = daysInYear year := by
  simp only [daysBeforeMonth, daysInMonth, daysInYear]
  cases isLeapYear year <;> rfl

theorem daysInMonth_pos (year : Int) (month : Nat) : 1 ≤ daysInMonth year month := by
  unfold daysInMonth
  split <;> split <;> omega

/-- A day is one of its month. -/
theorem dayNumber_le_of_month (d : Date) :
    daysBeforeMonth d.year d.month + d.day ≤ daysBeforeMonth d.year (d.month + 1) := by
  obtain ⟨_, ⟨low, _⟩, _, high⟩ := d.valid
  rw [daysBeforeMonth_succ _ low]
  omega

/-- A day is one of its year. -/
theorem dayNumber_range (d : Date) :
    daysBeforeYear d.year < d.dayNumber ∧ d.dayNumber ≤ daysBeforeYear (d.year + 1) := by
  obtain ⟨_, ⟨_, high⟩, first, _⟩ := d.valid
  have month := dayNumber_le_of_month d
  have year := daysBeforeMonth_mono d.year (show d.month + 1 ≤ 13 by omega)
  rw [daysBeforeMonth_thirteen] at year
  rw [daysBeforeYear_succ]
  unfold dayNumber
  omega

theorem year_le_of_dayNumber_eq {d e : Date} (h : d.dayNumber = e.dayNumber) :
    e.year ≤ d.year := by
  by_contra later
  have here := dayNumber_range d
  have there := dayNumber_range e
  have between := daysBeforeYear_mono (show d.year + 1 ≤ e.year by omega)
  omega

theorem month_le_of_dayNumber_eq {d e : Date} (year : d.year = e.year)
    (h : d.dayNumber = e.dayNumber) : e.month ≤ d.month := by
  by_contra later
  have here := dayNumber_le_of_month d
  have between := daysBeforeMonth_mono d.year (show d.month + 1 ≤ e.month by omega)
  have first := e.valid.2.2.1
  unfold dayNumber at h
  rw [year] at h here between
  omega

/-- A number determines its date. -/
theorem dayNumber_injective {d e : Date} (h : d.dayNumber = e.dayNumber) : d = e := by
  have year : d.year = e.year :=
    Int.le_antisymm (year_le_of_dayNumber_eq h.symm) (year_le_of_dayNumber_eq h)
  have month : d.month = e.month :=
    Nat.le_antisymm (month_le_of_dayNumber_eq year.symm h.symm) (month_le_of_dayNumber_eq year h)
  have day : d.day = e.day := by
    unfold dayNumber at h
    rw [year, month] at h
    omega
  cases d
  cases e
  simp_all

/-! ## The days before and after -/

theorem of?_eq_some {year : Int} {month day : Nat} (h : IsDate year month day) :
    of? year month day = some ⟨year, month, day, h⟩ :=
  dif_pos h

/-- The day after has the next number. -/
theorem exists_next? {d : Date} (h : d.year < lastYear) :
    ∃ e, d.next? = some e ∧ e.dayNumber = d.dayNumber + 1 := by
  obtain ⟨⟨first, last⟩, ⟨low, high⟩, one, days⟩ := d.valid
  unfold next?
  split
  · next inside =>
    exact ⟨_, of?_eq_some ⟨⟨first, last⟩, ⟨low, high⟩, by omega, inside⟩, by
      simp only [dayNumber]; omega⟩
  · next ended =>
    have whole : d.day = daysInMonth d.year d.month := by omega
    have month := daysBeforeMonth_succ d.year low
    split
    · next inside =>
      refine ⟨_, of?_eq_some ⟨⟨first, last⟩, by omega, Nat.le_refl 1, daysInMonth_pos _ _⟩, ?_⟩
      simp only [dayNumber, month, whole]
      omega
    · next december =>
      have twelve : d.month = 12 := by omega
      refine ⟨_, of?_eq_some ⟨by omega, by decide, Nat.le_refl 1, daysInMonth_pos _ _⟩, ?_⟩
      rw [twelve, daysBeforeMonth_thirteen] at month
      rw [twelve] at whole
      simp only [dayNumber, daysBeforeYear_succ, month, twelve, whole, daysBeforeMonth_one]
      omega

/-- The day before has the number before. -/
theorem exists_previous? {d : Date} (h : firstYear < d.year) :
    ∃ e, d.previous? = some e ∧ e.dayNumber = d.dayNumber - 1 := by
  obtain ⟨⟨first, last⟩, ⟨low, high⟩, one, days⟩ := d.valid
  unfold previous?
  split
  · next inside =>
    exact ⟨_, of?_eq_some ⟨⟨first, last⟩, ⟨low, high⟩, by omega, by omega⟩, by
      simp only [dayNumber]; omega⟩
  · next begun =>
    have begun : d.day = 1 := by omega
    split
    · next inside =>
      refine ⟨_, of?_eq_some ⟨⟨first, last⟩, by omega, daysInMonth_pos _ _, Nat.le_refl _⟩, ?_⟩
      have month := daysBeforeMonth_succ d.year (show 1 ≤ d.month - 1 by omega)
      rw [Nat.sub_add_cancel low] at month
      simp only [dayNumber, month, begun]
      omega
    · next january =>
      have one : d.month = 1 := by omega
      refine ⟨_, of?_eq_some ⟨by omega, by decide, by decide, Nat.le_refl 31⟩, ?_⟩
      have year := daysBeforeYear_succ (d.year - 1)
      have month := daysBeforeMonth_succ (d.year - 1) (show 1 ≤ 12 by decide)
      have december : daysInMonth (d.year - 1) 12 = 31 := rfl
      rw [Int.sub_add_cancel] at year
      rw [daysBeforeMonth_thirteen, december] at month
      simp only [dayNumber, year, month, one, begun, daysBeforeMonth_one]
      omega

end Date

/-! ## Minutes -/

namespace Timestamp

variable {d : Date} {minute second nano : Nat} {offset : Int}

/-- The number of a minute. -/
def minuteNumber (t : Timestamp) : Int :=
  1440 * t.date.dayNumber + t.minute

theorem of?_eq_some (h : minute < 1440 ∧ second ≤ 60 ∧ nano < 1000000000) :
    of? d minute second nano = some ⟨d, minute, second, nano, h⟩ :=
  dif_pos h

/-- Taking the offset away moves a local time by as many minutes, on to the day before or
after if need be. Only the seconds stay. -/
theorem exists_ofLocal? (inside : firstYear < d.year ∧ d.year < lastYear)
    (clock : minute < 1440 ∧ second ≤ 60 ∧ nano < 1000000000) (small : offset.natAbs < 1440) :
    ∃ t, ofLocal? d minute second nano offset = some t ∧
      t.minuteNumber = 1440 * d.dayNumber + minute - offset ∧ t.second = second ∧
      t.nano = nano := by
  obtain ⟨inDay, rest⟩ := clock
  unfold ofLocal?
  dsimp only
  split
  · obtain ⟨e, before, number⟩ := Date.exists_previous? inside.1
    rw [before, Option.bind_some]
    refine ⟨_, of?_eq_some ⟨by omega, rest⟩, ?_, rfl, rfl⟩
    simp only [minuteNumber]
    omega
  · split
    · refine ⟨_, of?_eq_some ⟨by omega, rest⟩, ?_, rfl, rfl⟩
      simp only [minuteNumber]
      omega
    · obtain ⟨e, after, number⟩ := Date.exists_next? inside.2
      rw [after, Option.bind_some]
      refine ⟨_, of?_eq_some ⟨by omega, rest⟩, ?_, rfl, rfl⟩
      simp only [minuteNumber]
      omega

end Timestamp

end FilterQuery

import FilterQuery.Proofs.Calendar.Parts

/-!
# Reading dates back

The text of a date is read as that date, whatever its year. A reader for years of
exactly four digits reads it just if the year has no sign. Main statement: the plain
reader is a left inverse of the printer.
-/

namespace FilterQuery.Calendar

variable {cs ds more rest : List Char} {n : Nat}

/-! ## Years -/

/-- A year that is printed without a sign. -/
def IsPlainYear (y : Int) : Prop := 0 ≤ y ∧ y ≤ 9999

instance : DecidablePred IsPlainYear := fun y =>
  inferInstanceAs (Decidable (0 ≤ y ∧ y ≤ 9999))

/-- The sign that a year is printed with. -/
def yearSign (y : Int) : Char := if y < 0 then '-' else '+'

theorem toList_yearText_of_plain {y : Int} (h : IsPlainYear y) :
    (Date.yearText y).toList = (zeroPadded 4 y.toNat).toList :=
  congrArg String.toList (if_pos h)

theorem toList_yearText_of_not_plain {y : Int} (h : ¬ IsPlainYear y) :
    (Date.yearText y).toList = yearSign y :: (zeroPadded 4 y.natAbs).toList := by
  refine (congrArg String.toList (if_neg h)).trans ?_
  rw [yearSign]
  split <;> simp [String.toList_append]

theorem year_of_isDigits (digits : IsDigits ds) (read : number 4 (ds ++ rest) = .ok (n, rest))
    (fits : FitsSigned32 n) : year (ds ++ rest) = .ok ((n : Int), rest) := by
  unfold year
  rw [dropBlanks_append digits]
  obtain ⟨ne, digit⟩ := digits
  cases ds with
  | nil => contradiction
  | cons c ds =>
    have here := digit c List.mem_cons_self
    rw [List.cons_append] at read ⊢
    dsimp only
    -- a digit is no sign
    split
    · next same =>
      obtain rfl := (List.cons.inj same).1
      contradiction
    · next same =>
      obtain rfl := (List.cons.inj same).1
      contradiction
    · rw [read]
      exact if_pos fits

theorem year_of_minus (read : number more.length more = .ok (n, rest))
    (fits : FitsSigned32 (-(n : Int))) : year ('-' :: more) = .ok (-(n : Int), rest) := by
  have front : dropBlanks ('-' :: more) = '-' :: more := rfl
  simp [year, front, read, fits]

theorem year_of_plus (read : number more.length more = .ok (n, rest))
    (fits : FitsSigned32 n) : year ('+' :: more) = .ok ((n : Int), rest) := by
  have front : dropBlanks ('+' :: more) = '+' :: more := rfl
  simp [year, front, read, fits]

/-- A number after a sign is read to its end. -/
theorem number_length_append (digits : IsDigits ds) (ended : EndsNumber rest)
    (fits : FitsSigned (digitsValue ds)) :
    number (ds ++ rest).length (ds ++ rest) = .ok (digitsValue ds, rest) :=
  number_append digits (by rw [List.length_append]; omega) (.inr ended) fits

theorem year_yearText {y : Int} (range : firstYear ≤ y ∧ y ≤ lastYear)
    (ended : EndsNumber rest) : year ((Date.yearText y).toList ++ rest) = .ok (y, rest) := by
  unfold firstYear lastYear at range
  by_cases plain : IsPlainYear y
  · obtain ⟨low, high⟩ := plain
    have same : (y.toNat : Int) = y := by omega
    rw [toList_yearText_of_plain ⟨low, high⟩, year_of_isDigits (isDigits_zeroPadded 4 _)
      (number_zeroPadded (by decide) (by omega) (by omega)) (by omega), same]
  · have read := number_length_append (isDigits_zeroPadded 4 y.natAbs) ended
      (by rw [digitsValue_zeroPadded]; omega)
    rw [digitsValue_zeroPadded] at read
    rw [toList_yearText_of_not_plain plain, yearSign, List.cons_append]
    by_cases negative : y < 0
    · have same : -(y.natAbs : Int) = y := by omega
      rw [if_pos negative, year_of_minus read (by omega), same]
    · have same : (y.natAbs : Int) = y := by omega
      rw [if_neg negative, year_of_plus read (by omega), same]

/-! ## Dates -/

theorem toList_text (d : Date) :
    d.text.toList = (Date.yearText d.year).toList ++
      '-' :: ((zeroPadded 2 d.month).toList ++ '-' :: (zeroPadded 2 d.day).toList) := by
  simp [Date.text, String.toList_append]

theorem month_range (d : Date) : 1 ≤ d.month ∧ d.month ≤ 12 := d.valid.2.1

theorem day_range (d : Date) : 1 ≤ d.day ∧ d.day ≤ 31 := by
  obtain ⟨_, _, low, high⟩ := d.valid
  refine ⟨low, Nat.le_trans high ?_⟩
  unfold daysInMonth
  split <;> split <;> omega

/-- The numbers of a date are read from its text, whatever follows. -/
@[simp]
theorem dateNumbers_text (blanks : Blanks) (d : Date) (rest : List Char) :
    dateNumbers blanks (d.text.toList ++ rest) = .ok ((d.year, d.month, d.day), rest) := by
  have month := month_range d
  have day := day_range d
  rw [toList_text]
  simp (disch := omega) [dateNumbers, year_yearText d.valid.1 (show EndsNumber ('-' :: _) from rfl)]

@[simp]
theorem of?_self (d : Date) : Date.of? d.year d.month d.day = some d :=
  dif_pos d.valid

@[simp]
theorem readDate_text (blanks : Blanks) (d : Date) : readDate blanks d.text = .ok d := by
  have front := dateNumbers_text blanks d []
  rw [List.append_nil] at front
  simp [readDate, front]

/-- A date is not read from a text that goes on after it. -/
theorem readDate_append (d : Date) {s : String} {c : Char}
    (h : s.toList = d.text.toList ++ c :: rest) : readDate .none s = .error .tooLong := by
  simp [readDate, h, Blanks.skip]

/-! ## Dates of full width -/

/-- The date at the front of the strict form. -/
def strictDate : Reader (Int × Nat × Nat) := fun cs => do
  let (y, cs) ← fixedNumber 4 cs
  let (_, cs) ← literal '-' cs
  let (m, cs) ← within 1 12 (fixedNumber 2) cs
  let (_, cs) ← literal '-' cs
  let (d, cs) ← within 1 31 (fixedNumber 2) cs
  return ((y, m, d), cs)

theorem strictDate_text {d : Date} (plain : IsPlainYear d.year) (rest : List Char) :
    strictDate (d.text.toList ++ rest) = .ok ((d.year, d.month, d.day), rest) := by
  have month := month_range d
  have day := day_range d
  obtain ⟨low, high⟩ := plain
  have same : (d.year.toNat : Int) = d.year := by omega
  rw [toList_text, toList_yearText_of_plain ⟨low, high⟩]
  simp (disch := omega) [strictDate, same]

/-- The sign of a year is no digit. -/
theorem strictDate_text_of_not_plain {d : Date} (signed : ¬ IsPlainYear d.year)
    (rest : List Char) : strictDate (d.text.toList ++ rest) = .error .invalid := by
  have sign : (yearSign d.year).isDigit = false := by
    rw [yearSign]
    split <;> rfl
  rw [toList_text, toList_yearText_of_not_plain signed]
  simp [strictDate, fixedNumber, sign]

end FilterQuery.Calendar

namespace FilterQuery

/-- Reading is a left inverse of printing. -/
theorem Date.read?_text (d : Date) : Date.read? d.text = some d := by
  rw [Date.read?, Calendar.readDate_text]
  rfl

end FilterQuery

import FilterQuery.Calendar.Reader
import FilterQuery.Proofs.Number.Digits
import FilterQuery.Proofs.Result

/-!
# Reading numbers back

Each reader takes from the front of a text the number that is printed there, and
leaves the rest. A reader for numbers of full width needs no more than the width; the
others need that the rest does not go on with a digit.
-/

namespace FilterQuery.Calendar

/-- A text that does not carry a number on: it is empty or begins with no digit. -/
def EndsNumber : List Char → Prop
  | [] => True
  | c :: _ => c.isDigit = false

@[simp]
theorem endsNumber_nil : EndsNumber [] :=
  trivial

@[simp]
theorem endsNumber_cons {c : Char} {rest : List Char} :
    EndsNumber (c :: rest) ↔ c.isDigit = false :=
  Iff.rfl

theorem not_isBlank_of_isDigit {c : Char} (h : c.isDigit = true) : isBlank c = false := by
  simp only [Char.isDigit, ge_iff_le, Bool.and_eq_true, decide_eq_true_eq] at h
  have low : 48 ≤ c.toNat := h.1
  have high : c.toNat ≤ 57 := h.2
  simp only [isBlank, decide_eq_false_iff_not]
  omega

variable {width n low high : Nat} {ds rest : List Char}

@[simp]
theorem dropBlanks_nil : dropBlanks [] = [] :=
  rfl

/-- Blanks are passed over only in front. -/
@[simp]
theorem dropBlanks_append (digits : IsDigits ds) : dropBlanks (ds ++ rest) = ds ++ rest := by
  obtain ⟨ne, digit⟩ := digits
  cases ds with
  | nil => contradiction
  | cons c ds => simp [dropBlanks, not_isBlank_of_isDigit (digit c (by simp))]

@[simp]
theorem takeWhile_isDigit (h : EndsNumber rest) : rest.takeWhile Char.isDigit = [] := by
  cases rest with
  | nil => rfl
  | cons c rest => simp [endsNumber_cons.1 h]

@[simp]
theorem dropWhile_isDigit (h : EndsNumber rest) : rest.dropWhile Char.isDigit = rest := by
  cases rest with
  | nil => rfl
  | cons c rest => simp [endsNumber_cons.1 h]

theorem EndsNumber.take (h : EndsNumber rest) (count : Nat) : EndsNumber (rest.take count) := by
  cases count with
  | zero => trivial
  | succ count =>
    cases rest with
    | nil => trivial
    | cons c rest => exact h

/-- The digits at the front are all of the number: it has its full width, or the rest
does not go on with a digit. -/
theorem takeWhile_take_append (digits : IsDigits ds) (length : ds.length ≤ width)
    (stop : ds.length = width ∨ EndsNumber rest) :
    ((ds ++ rest).take width).takeWhile Char.isDigit = ds := by
  rw [List.take_append, List.take_of_length_le length,
    List.takeWhile_append_of_pos digits.isDigit]
  rcases stop with full | ended
  · rw [full, Nat.sub_self, List.take_zero, List.takeWhile_nil, List.append_nil]
  · rw [takeWhile_isDigit (ended.take _), List.append_nil]

theorem number_append (digits : IsDigits ds) (length : ds.length ≤ width)
    (stop : ds.length = width ∨ EndsNumber rest) (fits : FitsSigned (digitsValue ds)) :
    number width (ds ++ rest) = .ok (digitsValue ds, rest) := by
  have front := takeWhile_take_append digits length stop
  have ne : ds ++ rest ≠ [] := by simp [digits.ne_nil]
  unfold number
  split
  · contradiction
  · simp only [front, digits.ne_nil, if_false, List.drop_left]
    exact if_pos fits

theorem number_zeroPadded (positive : 0 < width) (h : n < 10 ^ width) (fits : FitsSigned n) :
    number width ((zeroPadded width n).toList ++ rest) = .ok (n, rest) := by
  have length := length_zeroPadded positive h
  have read : FitsSigned (digitsValue (zeroPadded width n).toList) →
      number width ((zeroPadded width n).toList ++ rest) = .ok (_, rest) :=
    number_append (isDigits_zeroPadded width n) (Nat.le_of_eq length) (.inl length)
  rw [digitsValue_zeroPadded] at read
  exact read fits

@[simp]
theorem fixedNumber_zeroPadded (positive : 0 < width) (h : n < 10 ^ width) :
    fixedNumber width ((zeroPadded width n).toList ++ rest) = .ok (n, rest) := by
  have length := length_zeroPadded positive h
  have front : (((zeroPadded width n).toList ++ rest).take width).takeWhile Char.isDigit = _ :=
    takeWhile_take_append (isDigits_zeroPadded width n) (Nat.le_of_eq length) (.inl length)
  simp only [fixedNumber, front, length, if_true, digitsValue_zeroPadded]
  rw [List.drop_left' length]

theorem within_of_eq_ok {read : Reader Nat} {cs : List Char} (h : read cs = .ok (n, rest))
    (range : low ≤ n ∧ n ≤ high) : within low high read cs = .ok (n, rest) := by
  simp [within, h, range]

/-- A number of two digits is read in its full width. -/
@[simp]
theorem within_fixedNumber_zeroPadded (h : n < 100) (range : low ≤ n ∧ n ≤ high) :
    within low high (fixedNumber 2) ((zeroPadded 2 n).toList ++ rest) = .ok (n, rest) :=
  within_of_eq_ok (fixedNumber_zeroPadded (by decide) h) range

@[simp]
theorem field_zeroPadded (h : n < 100) (range : low ≤ n ∧ n ≤ high) :
    field low high ((zeroPadded 2 n).toList ++ rest) = .ok (n, rest) := by
  rw [field, dropBlanks_append (isDigits_zeroPadded 2 n)]
  exact within_of_eq_ok (number_zeroPadded (by decide) h (by omega)) range

/-! ## Marks -/

@[simp]
theorem literal_cons (c : Char) (rest : List Char) : literal c (c :: rest) = .ok ((), rest) :=
  if_pos rfl

@[simp]
theorem timeMark_T (rest : List Char) : timeMark ('T' :: rest) = .ok ((), rest) :=
  rfl

@[simp]
theorem skip_nil (blanks : Blanks) : blanks.skip [] = [] := by
  cases blanks <;> rfl

/-- No blanks stand before a hyphen. -/
@[simp]
theorem skip_hyphen (blanks : Blanks) (rest : List Char) :
    blanks.skip ('-' :: rest) = '-' :: rest := by
  cases blanks <;> rfl

/-- No blanks stand before a colon. -/
@[simp]
theorem skip_colon (blanks : Blanks) (rest : List Char) :
    blanks.skip (':' :: rest) = ':' :: rest := by
  cases blanks <;> rfl

/-! ## Fractions of a second -/

/-- One to nine places count as nanoseconds. -/
theorem places_append (digits : IsDigits ds) (length : ds.length ≤ 9) (ended : EndsNumber rest) :
    places (ds ++ rest) = .ok (digitsValue ds * 10 ^ (9 - ds.length), rest) := by
  have small : digitsValue ds < 10 ^ 9 :=
    Nat.lt_of_lt_of_le (digitsValue_lt digits.isDigit) (Nat.pow_le_pow_right (by decide) length)
  have read : number 9 (ds ++ rest) = .ok (digitsValue ds, rest) :=
    number_append digits length (.inr ended) (by omega)
  simp [places, read, ended, powerOfTen]

end FilterQuery.Calendar

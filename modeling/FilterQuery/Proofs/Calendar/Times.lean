import FilterQuery.Proofs.Calendar.Dates

/-!
# Reading points in time back

A point in time is printed as a date and a time of day, which the readers of every
form take from the front of a text; the forms differ in what they take after it.
Main statement: what is printed with three places is read again, cut to them, just if
its year is printed without a sign.
-/

namespace FilterQuery

namespace Timestamp

/-- The time of day up to the second, as it is printed. -/
def clockChars (t : Timestamp) : List Char :=
  (zeroPadded 2 (t.minute / 60)).toList ++ ':' ::
    ((zeroPadded 2 (t.minute % 60)).toList ++ ':' :: (zeroPadded 2 t.second).toList)

theorem toList_secondsText (t : Timestamp) :
    t.secondsText.toList = t.date.text.toList ++ 'T' :: t.clockChars := by
  simp [secondsText, clockChars]

/-- The places of a second and the letter for UTC, as they are printed. -/
def millisChars (t : Timestamp) : List Char :=
  '.' :: ((zeroPadded 3 (t.nano / 1000000)).toList ++ ['Z'])

theorem toList_millisText (t : Timestamp) :
    t.millisText.toList = t.secondsText.toList ++ t.millisChars := by
  simp [millisText, millisChars]

/-- The parts of a local time that is printed like `t` up to the second. -/
def localTime (t : Timestamp) (nano : Nat) (offset : Int) : Calendar.LocalTime :=
  ⟨t.date.year, t.date.month, t.date.day, t.minute / 60, t.minute % 60, t.second, nano, offset⟩

/-- The same point in time, cut to whole milliseconds. -/
def toMillis (t : Timestamp) : Timestamp where
  date := t.date
  minute := t.minute
  second := t.second
  nano := t.nano / 1000000 * 1000000
  valid := by
    have := t.valid
    omega

theorem millisText_toMillis (t : Timestamp) : t.toMillis.millisText = t.millisText := by
  have same : t.nano / 1000000 * 1000000 / 1000000 = t.nano / 1000000 :=
    Nat.mul_div_cancel _ (by decide)
  simp [millisText, secondsText, toMillis]

end Timestamp

namespace Calendar

variable {t : Timestamp} {n : Nat} {o : Int} {rest rest' rest'' : List Char}

/-! ## The time of day -/

/-- The time of day of the strict form. -/
def strictClock : Reader (Nat × Nat × Nat × Nat) := fun cs => do
  let (h, cs) ← within 0 23 (fixedNumber 2) cs
  let (_, cs) ← literal ':' cs
  let (m, cs) ← within 0 59 (fixedNumber 2) cs
  let (_, cs) ← literal ':' cs
  let (s, cs) ← within 0 60 (fixedNumber 2) cs
  let (n, cs) ← fraction cs
  return ((h, m, s, n), cs)

/-- The strict form is a date, a mark, a time of day and an offset. -/
theorem strictTime_eq (cs : List Char) : strictTime cs = (do
    let ((y, mo, d), cs) ← strictDate cs
    let (_, cs) ← timeMark cs
    let ((h, mi, s, n), cs) ← strictClock cs
    let (o, cs) ← zone .colon cs
    return (⟨y, mo, d, h, mi, s, n, o⟩, cs)) := by
  simp [strictTime, strictDate, strictClock]

theorem hour_range (t : Timestamp) : 0 ≤ t.minute / 60 ∧ t.minute / 60 ≤ 23 := by
  have := t.valid
  omega

theorem minute_range (t : Timestamp) : 0 ≤ t.minute % 60 ∧ t.minute % 60 ≤ 59 := by
  omega

theorem second_range (t : Timestamp) : 0 ≤ t.second ∧ t.second ≤ 60 := by
  have := t.valid
  omega

theorem strictClock_clockChars (places : fraction rest = .ok (n, rest')) :
    strictClock (t.clockChars ++ rest) =
      .ok ((t.minute / 60, t.minute % 60, t.second, n), rest') := by
  have hour := hour_range t
  have minute := minute_range t
  have second := second_range t
  simp (disch := omega) [Timestamp.clockChars, strictClock, places]

theorem clock_clockChars (blanks : Blanks) (places : fraction rest = .ok (n, rest')) :
    clock blanks (t.clockChars ++ rest) =
      .ok ((t.minute / 60, t.minute % 60, t.second, n), rest') := by
  have hour := hour_range t
  have minute := minute_range t
  have second := second_range t
  simp (disch := omega) [Timestamp.clockChars, clock, places]

/-! ## The forms -/

theorem strictTime_secondsText (plain : IsPlainYear t.date.year)
    (places : fraction rest = .ok (n, rest')) (offset : zone .colon rest' = .ok (o, rest'')) :
    strictTime (t.secondsText.toList ++ rest) = .ok (t.localTime n o, rest'') := by
  rw [strictTime_eq, t.toList_secondsText, List.append_assoc, strictDate_text plain]
  simp [strictClock_clockChars places, offset, Timestamp.localTime]

theorem strictTime_text_of_not_plain {d : Date} (signed : ¬ IsPlainYear d.year)
    (rest : List Char) : strictTime (d.text.toList ++ rest) = .error .invalid := by
  simp [strictTime_eq, strictDate_text_of_not_plain signed]

/-- The numbers of the second form end before the offset. -/
theorem offsetTime_secondsText (places : fraction rest = .ok (n, rest')) :
    offsetTime (t.secondsText.toList ++ rest) =
      (offset .free (dropBlanks rest')).map fun (o, rest) => (t.localTime n o, rest) := by
  rw [offsetTime, t.toList_secondsText, List.append_assoc, dateNumbers_text]
  simp only [ok_bind, List.cons_append, literal_cons, clock_clockChars .none places,
    Timestamp.localTime]
  cases offset .free (dropBlanks rest') <;> rfl

/-- Places of full width count as many nanoseconds each as their number says. -/
theorem fraction_zeroPadded {width : Nat} (positive : 0 < width) (places : width ≤ 9)
    (small : n < 10 ^ width) :
    fraction ('.' :: ((zeroPadded width n).toList ++ ['Z'])) =
      .ok (n * 10 ^ (9 - width), ['Z']) := by
  have length := length_zeroPadded positive small
  have read : Calendar.places ((zeroPadded width n).toList ++ ['Z']) = .ok (_, ['Z']) :=
    places_append (isDigits_zeroPadded width n) (by omega) rfl
  rw [length, digitsValue_zeroPadded] at read
  exact read

theorem fraction_millisChars (t : Timestamp) :
    fraction t.millisChars = .ok (t.nano / 1000000 * 1000000, ['Z']) := by
  have small : t.nano / 1000000 < 10 ^ 3 := by
    have := t.valid
    omega
  exact fraction_zeroPadded (by decide) (by decide) small

/-- A local time without an offset is the point in time that is printed like it. -/
theorem toTimestamp_localTime_zero {nano : Nat} (h : nano < 1000000000) :
    (t.localTime nano 0).toTimestamp =
      .ok { t with nano := nano, valid := ⟨t.valid.1, t.valid.2.1, h⟩ } := by
  have clock : 60 * (t.minute / 60) + t.minute % 60 = t.minute := Nat.div_add_mod ..
  have early : ¬ ((t.minute : Int) < 0) := by omega
  have late : (t.minute : Int) < 1440 := by have := t.valid; omega
  simp [LocalTime.toTimestamp, Timestamp.localTime, clock, Timestamp.ofLocal?, early, late,
    Timestamp.of?, t.valid, h]

/-! ## Whole texts -/

variable {read : Reader LocalTime} {s : String} {l : LocalTime} {fault : Fault}

theorem readTime_of_eq_ok (h : read s.toList = .ok (l, [])) :
    readTime read s = l.toTimestamp := by
  simp [readTime, h]

theorem readTime_of_eq_error (h : read s.toList = .error fault) :
    readTime read s = .error fault := by
  simp [readTime, h]

end Calendar

namespace Timestamp

open Calendar

/-- A point in time whose year has no sign is read again, cut to milliseconds. -/
theorem read?_millisText_of_plain {t : Timestamp} (plain : IsPlainYear t.date.year) :
    read? t.millisText = some t.toMillis := by
  have strict : strictTime t.millisText.toList =
      .ok (t.localTime (t.nano / 1000000 * 1000000) 0, []) := by
    rw [toList_millisText]
    exact strictTime_secondsText plain (fraction_millisChars t) rfl
  have cut : t.nano / 1000000 * 1000000 < 1000000000 := by
    have := t.valid
    omega
  rw [read?, readTime_of_eq_ok strict, toTimestamp_localTime_zero cut]
  rfl

/-- With a sign before the year neither form is left: one takes four digits, and the
other no letter for UTC. -/
theorem read?_millisText_of_not_plain {t : Timestamp} (signed : ¬ IsPlainYear t.date.year) :
    read? t.millisText = none := by
  have strict : strictTime t.millisText.toList = .error .invalid := by
    rw [toList_millisText, toList_secondsText, List.append_assoc]
    exact strictTime_text_of_not_plain signed _
  have loose : offsetTime t.millisText.toList = .error .invalid := by
    rw [toList_millisText, offsetTime_secondsText (fraction_millisChars t)]
    rfl
  rw [read?, readTime_of_eq_error strict, readTime_of_eq_error loose, toOption_error]

/-- A date is no point in time. -/
theorem read?_dateText (d : Date) : read? d.text = none := by
  have strict : ∃ fault, strictTime d.text.toList = .error fault := by
    rw [← List.append_nil d.text.toList]
    by_cases plain : IsPlainYear d.year
    · refine ⟨.tooShort, ?_⟩
      rw [strictTime_eq, strictDate_text plain]
      rfl
    · exact ⟨_, strictTime_text_of_not_plain plain []⟩
  have loose : offsetTime d.text.toList = .error .tooShort := by
    rw [← List.append_nil d.text.toList, offsetTime, dateNumbers_text]
    rfl
  obtain ⟨fault, strict⟩ := strict
  rw [read?, readTime_of_eq_error strict, readTime_of_eq_error loose, toOption_error]

end Timestamp

/-- A point in time is no date. -/
theorem Date.read?_millisText (t : Timestamp) : Date.read? t.millisText = none := by
  have goesOn : t.millisText.toList =
      t.date.text.toList ++ 'T' :: (t.clockChars ++ t.millisChars) := by
    rw [t.toList_millisText, t.toList_secondsText, List.append_assoc, List.cons_append]
  rw [Date.read?, Calendar.readDate_append t.date goesOn]
  rfl

end FilterQuery

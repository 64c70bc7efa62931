import FilterQuery.Proofs.Calendar.Days
import FilterQuery.Proofs.Calendar.Times

/-!
# Reading local times with their offsets

A local date and time is written with a fraction of a second of any length and one of two
forms of an offset. Main statement: whichever form the offset has, what is read is the
point in time whose minute is the local one less the offset.
-/

namespace FilterQuery

namespace Calendar

/-! ## Local times -/

/-- A date and a time of day in some place, as they are written with a year of four digits.
The fraction of a second has nine digits at most, or is left out. -/
structure WallTime where
  date : Date
  hour : Nat
  minute : Nat
  second : Nat
  fraction : List Char
  plain : IsPlainYear date.year
  clock : hour < 24 ∧ minute < 60 ∧ second < 60
  digits : ∀ c ∈ fraction, c.isDigit = true
  length_le : fraction.length ≤ 9

namespace WallTime

variable (w : WallTime)

/-- The fraction after its point. -/
def fractionText : String :=
  if w.fraction = [] then "" else "." ++ String.ofList w.fraction

/-- The text of a local time, without an offset. -/
def text : String :=
  w.date.text ++ "T" ++ zeroPadded 2 w.hour ++ ":" ++ zeroPadded 2 w.minute ++ ":" ++
    zeroPadded 2 w.second ++ w.fractionText

/-- The number of the minute. -/
def minuteNumber : Int :=
  1440 * w.date.dayNumber + (60 * w.hour + w.minute : Nat)

def nano : Nat :=
  digitsValue w.fraction * 10 ^ (9 - w.fraction.length)

theorem nano_lt : w.nano < 1000000000 := by
  have small := digitsValue_lt w.digits
  have length := w.length_le
  calc
    w.nano < 10 ^ w.fraction.length * 10 ^ (9 - w.fraction.length) :=
      Nat.mul_lt_mul_of_pos_right small (Nat.pow_pos (by decide))
    _ = 1000000000 := by rw [← Nat.pow_add, Nat.add_sub_cancel' length]

/-- The point in time that is written like the local time. -/
def asUtc : Timestamp where
  date := w.date
  minute := 60 * w.hour + w.minute
  second := w.second
  nano := w.nano
  valid := by
    have := w.clock
    have := w.nano_lt
    omega

theorem text_eq : w.text = w.asUtc.secondsText ++ w.fractionText := by
  have clock := w.clock
  have hour : (60 * w.hour + w.minute) / 60 = w.hour := by omega
  have minute : (60 * w.hour + w.minute) % 60 = w.minute := by omega
  simp only [text, Timestamp.secondsText, asUtc, hour, minute]

/-- The places of a fraction are read up to what follows. -/
theorem fraction_append {c : Char} {rest : List Char} (digit : c.isDigit = false)
    (point : c ≠ '.') :
    Calendar.fraction (w.fractionText.toList ++ c :: rest) = .ok (w.nano, c :: rest) := by
  unfold fractionText
  split
  · next none =>
    have zero : w.nano = 0 := by simp [nano, none, digitsValue]
    rw [zero]
    unfold Calendar.fraction
    split
    · next same => exact absurd (List.cons.inj same).1 point
    · rfl
  · next some =>
    have chars : ("." ++ String.ofList w.fraction).toList ++ c :: rest =
        '.' :: (w.fraction ++ c :: rest) := by
      simp [String.toList_append]
    rw [chars]
    exact places_append ⟨some, w.digits⟩ w.length_le (show EndsNumber (c :: rest) from digit)

/-- The first three digits of the fraction, zeros in place of those that it does not have. -/
def millis : List Char :=
  (w.fraction ++ List.replicate 3 '0').take 3

/-- Cutting the fraction to three digits is rounding the nanoseconds down. -/
theorem zeroPadded_nano : (zeroPadded 3 (w.nano / 1000000)).toList = w.millis := by
  have small := w.nano_lt
  have length := w.length_le
  -- the fraction filled up to nine digits, and its first three
  let filled := w.fraction ++ List.replicate (9 - w.fraction.length) '0'
  have nine : filled.length = 9 := by simp [filled, length]
  have digit : ∀ c ∈ filled, c.isDigit = true := by
    intro c hc
    rcases List.mem_append.1 hc with given | zero
    · exact w.digits c given
    · obtain rfl := List.eq_of_mem_replicate zero
      decide
  have value : digitsValue filled = w.nano := by
    rw [digitsValue_append, digitsValue_replicate_zero, List.length_replicate, Nat.add_zero, nano]
  have front : filled.take 3 = w.millis := by
    simp only [filled, millis, List.take_append, List.take_replicate]
    congr 2
    omega
  have split := digitsValue_append (filled.take 3) (filled.drop 3)
  rw [List.take_append_drop, value, List.length_drop, nine] at split
  have rest : digitsValue (filled.drop 3) < 10 ^ (filled.drop 3).length :=
    digitsValue_lt fun c hc => digit c (List.mem_of_mem_drop hc)
  rw [List.length_drop, nine] at rest
  rw [← front]
  refine eq_of_digitsValue_eq (isDigits_zeroPadded 3 _).isDigit
    (fun c hc => digit c (List.mem_of_mem_take hc)) ?_ ?_
  · rw [length_zeroPadded (by decide) (by omega), List.length_take, nine]
    rfl
  · rw [digitsValue_zeroPadded]
    omega

end WallTime

/-! ## Offsets -/

/-- How far a local time is ahead of UTC, or behind it: less than a day, in hours and
minutes. -/
structure Offset where
  behind : Bool
  hour : Nat
  minute : Nat
  valid : hour < 24 ∧ minute < 60

namespace Offset

variable (o : Offset)

/-- The minutes ahead of UTC. -/
def minutes : Int :=
  if o.behind then -(60 * o.hour + o.minute : Int) else 60 * o.hour + o.minute

def sign : Char :=
  if o.behind then '-' else '+'

/-- The form with a colon. -/
def extended : String :=
  String.singleton o.sign ++ zeroPadded 2 o.hour ++ ":" ++ zeroPadded 2 o.minute

/-- The form without a colon. -/
def basic : String :=
  String.singleton o.sign ++ zeroPadded 2 o.hour ++ zeroPadded 2 o.minute

theorem natAbs_minutes_lt : o.minutes.natAbs < 1440 := by
  have := o.valid
  unfold minutes
  split <;> omega

theorem toList_extended : o.extended.toList =
    o.sign :: ((zeroPadded 2 o.hour).toList ++ ':' :: (zeroPadded 2 o.minute).toList) := by
  simp [extended, String.toList_append]

theorem toList_basic : o.basic.toList =
    o.sign :: ((zeroPadded 2 o.hour).toList ++ (zeroPadded 2 o.minute).toList) := by
  simp [basic, String.toList_append]

theorem sign_cases : o.sign = '-' ∧ o.behind = true ∨ o.sign = '+' ∧ o.behind = false := by
  unfold sign
  cases o.behind <;> simp

@[simp]
theorem isDigit_sign : o.sign.isDigit = false := by
  rcases o.sign_cases with ⟨h, _⟩ | ⟨h, _⟩ <;> rw [h] <;> rfl

theorem sign_ne_point : o.sign ≠ '.' := by
  rcases o.sign_cases with ⟨h, _⟩ | ⟨h, _⟩ <;> rw [h] <;> decide

@[simp]
theorem sign_cons (rest : List Char) :
    Calendar.sign (o.sign :: rest) = .ok (o.behind, rest) := by
  rcases o.sign_cases with ⟨h, behind⟩ | ⟨h, behind⟩ <;> rw [h, behind] <;> rfl

@[simp]
theorem dropBlanks_sign (rest : List Char) : dropBlanks (o.sign :: rest) = o.sign :: rest := by
  rcases o.sign_cases with ⟨h, _⟩ | ⟨h, _⟩ <;> rw [h] <;> rfl

/-- A sign is no letter for UTC. -/
@[simp]
theorem zone_sign (separator : Separator) (rest : List Char) :
    zone separator (o.sign :: rest) = offset separator (o.sign :: rest) := by
  rcases o.sign_cases with ⟨h, _⟩ | ⟨h, _⟩ <;> rw [h] <;> rfl

end Offset

theorem pair_zeroPadded {n : Nat} (h : n < 100) (rest : List Char) :
    ∃ a b, pair ((zeroPadded 2 n).toList ++ rest) = .ok ((a, b), rest) ∧ 10 * a + b = n := by
  obtain ⟨a, b, two, digit, digit', value⟩ := toList_zeroPadded_two h
  refine ⟨_, _, ?_, value⟩
  rw [two]
  simp [pair, digit, digit']

/-- An offset is read if its separator is taken away between its hours and its minutes. -/
theorem offset_sign {separator : Separator} (o : Offset) {rest : List Char}
    (skip : separator.skip rest = .ok (zeroPadded 2 o.minute).toList) :
    offset separator (o.sign :: ((zeroPadded 2 o.hour).toList ++ rest)) = .ok (o.minutes, []) := by
  obtain ⟨hour, minute⟩ := o.valid
  obtain ⟨h, h', hours, sumHours⟩ := pair_zeroPadded (show o.hour < 100 by omega) rest
  obtain ⟨m, m', minutes, sumMinutes⟩ := pair_zeroPadded (show o.minute < 100 by omega) []
  rw [List.append_nil] at minutes
  have small : ¬ 6 ≤ m := by omega
  have total : (10 * (h : Int) + h') * 60 + (10 * m + m') = 60 * o.hour + o.minute := by omega
  rw [Offset.minutes, ← total]
  simp [offset, hours, skip, minutes, small]

@[simp]
theorem zone_extended (o : Offset) : zone .colon o.extended.toList = .ok (o.minutes, []) := by
  rw [o.toList_extended, o.zone_sign]
  exact offset_sign o rfl

/-- A form that asks for the colon does not read an offset without one. -/
@[simp]
theorem zone_basic (o : Offset) : zone .colon o.basic.toList = .error .invalid := by
  obtain ⟨hour, minute⟩ := o.valid
  obtain ⟨h, h', hours, _⟩ :=
    pair_zeroPadded (show o.hour < 100 by omega) (zeroPadded 2 o.minute).toList
  obtain ⟨a, b, two, digit, _⟩ := toList_zeroPadded_two (show o.minute < 100 by omega)
  have colon : a ≠ ':' := by
    rintro rfl
    cases digit
  rw [two] at hours
  rw [o.toList_basic, o.zone_sign, two]
  simp [offset, hours, Separator.skip, literal, colon]

@[simp]
theorem offset_basic (o : Offset) : offset .free o.basic.toList = .ok (o.minutes, []) := by
  rw [o.toList_basic]
  obtain ⟨a, b, two, digit, _⟩ := toList_zeroPadded_two (show o.minute < 100 by
    have := o.valid
    omega)
  refine offset_sign o ?_
  have stop : (decide (a = ':') || isBlank a) = false := by
    rw [not_isBlank_of_isDigit digit, Bool.or_false, decide_eq_false_iff_not]
    rintro rfl
    cases digit
  rw [two, Separator.skip, List.dropWhile_cons_of_neg (by rw [stop]; decide)]

/-! ## Points in time -/

variable {w : WallTime} {o : Int} {rest : List Char}

/-- The point in time of a local time: the minute is moved by the offset. -/
theorem exists_toTimestamp (w : WallTime) (small : o.natAbs < 1440) :
    ∃ t, (w.asUtc.localTime w.nano o).toTimestamp = .ok t ∧
      t.minuteNumber = w.minuteNumber - o ∧ t.second = w.second ∧ t.nano = w.nano := by
  obtain ⟨low, high⟩ := w.plain
  have inside : firstYear < w.date.year ∧ w.date.year < lastYear := by
    unfold firstYear lastYear
    omega
  have whole : 60 * ((60 * w.hour + w.minute) / 60) + (60 * w.hour + w.minute) % 60 =
      60 * w.hour + w.minute := Nat.div_add_mod ..
  obtain ⟨t, found, minute, same⟩ := Timestamp.exists_ofLocal? inside w.asUtc.valid small
  refine ⟨t, ?_, minute, same⟩
  simp only [LocalTime.toTimestamp, Timestamp.localTime, WallTime.asUtc, of?_self, small, if_true,
    whole]
  rw [show Timestamp.ofLocal? w.date (60 * w.hour + w.minute) w.second w.nano o = some t from found]

theorem strictTime_wallTime {c : Char} (digit : c.isDigit = false) (point : c ≠ '.')
    (read : zone .colon (c :: rest) = .ok (o, [])) {s : String} (chars : s.toList = c :: rest) :
    readTime strictTime (w.text ++ s) = (w.asUtc.localTime w.nano o).toTimestamp := by
  have front : strictTime (w.text ++ s).toList = .ok (w.asUtc.localTime w.nano o, []) := by
    rw [w.text_eq, String.toList_append, String.toList_append, chars, List.append_assoc]
    exact strictTime_secondsText w.plain (w.fraction_append digit point) read
  exact readTime_of_eq_ok front

end Calendar

namespace Timestamp

open Calendar

variable {w : WallTime}

/-- A local time with a letter for UTC or an offset with a colon is read in the strict form. -/
theorem read?_wallTime_strict {c : Char} {rest : List Char} {s : String} {o : Int} {t : Timestamp}
    (chars : s.toList = c :: rest) (digit : c.isDigit = false) (point : c ≠ '.')
    (zoned : zone .colon (c :: rest) = .ok (o, []))
    (found : (w.asUtc.localTime w.nano o).toTimestamp = .ok t) : read? (w.text ++ s) = some t := by
  rw [read?, strictTime_wallTime digit point zoned chars, found]

theorem read?_wallTime_extended {o : Offset} {t : Timestamp}
    (found : (w.asUtc.localTime w.nano o.minutes).toTimestamp = .ok t) :
    read? (w.text ++ o.extended) = some t := by
  have zoned := zone_extended o
  rw [o.toList_extended] at zoned
  exact read?_wallTime_strict o.toList_extended o.isDigit_sign o.sign_ne_point zoned found

/-- The strict form stops before the minutes of the offset, and the other form reads all. -/
theorem read?_wallTime_basic {o : Offset} {t : Timestamp}
    (found : (w.asUtc.localTime w.nano o.minutes).toTimestamp = .ok t) :
    read? (w.text ++ o.basic) = some t := by
  have chars : (w.text ++ o.basic).toList =
      w.asUtc.secondsText.toList ++ (w.fractionText.toList ++ o.basic.toList) := by
    rw [w.text_eq, String.toList_append, String.toList_append, List.append_assoc]
  have places : fraction (w.fractionText.toList ++ o.basic.toList) =
      .ok (w.nano, o.basic.toList) := by
    rw [o.toList_basic]
    exact w.fraction_append o.isDigit_sign o.sign_ne_point
  have blanks : dropBlanks o.basic.toList = o.basic.toList := by
    rw [o.toList_basic, o.dropBlanks_sign]
  have date : ∀ cs, strictDate (w.asUtc.date.text.toList ++ cs) = .ok (_, cs) :=
    strictDate_text w.plain
  have strict : strictTime (w.text ++ o.basic).toList = .error .invalid := by
    rw [chars, strictTime_eq, toList_secondsText, List.append_assoc, date]
    simp [strictClock_clockChars places]
  have loose : offsetTime (w.text ++ o.basic).toList =
      .ok (w.asUtc.localTime w.nano o.minutes, []) := by
    rw [chars, offsetTime_secondsText places, blanks, offset_basic]
    rfl
  rw [read?, readTime_of_eq_error strict, readTime_of_eq_ok loose, found, toOption_ok]

end Timestamp

end FilterQuery

import FilterQuery.Proofs.Calendar.Offsets
import FilterQuery.Proofs.Schema.Coercion

/-!
# One text for each point in time

A field for points in time gives all texts of one point in time the same form. Main
statement: a local time is written anew as the date and minute that are the offset before
it, with its fraction cut to three digits; the two forms of an offset and the letter for
UTC make no difference.
-/

namespace FilterQuery

open Calendar

/-- A minute of a day in UTC, a second and three digits of a fraction, as a field for points
in time writes them. -/
def Date.utcText (d : Date) (minute second : Nat) (millis : List Char) : String :=
  d.text ++ "T" ++ zeroPadded 2 (minute / 60) ++ ":" ++ zeroPadded 2 (minute % 60) ++ ":" ++
    zeroPadded 2 second ++ "." ++ String.ofList millis ++ "Z"

theorem Timestamp.millisText_eq_utcText {t : Timestamp} {w : WallTime}
    (second : t.second = w.second) (nano : t.nano = w.nano) :
    t.millisText = t.date.utcText t.minute w.second w.millis := by
  have millis : zeroPadded 3 (t.nano / 1000000) = String.ofList w.millis := by
    rw [nano, ← w.zeroPadded_nano, String.ofList_toList]
  rw [millisText, secondsText, millis, second, Date.utcText]

namespace FieldSchema

theorem coerce_of_read? {s : FieldSchema} (type : s.type = .timestamp) {text : String}
    {t : Timestamp} (read : Timestamp.read? text = some t) :
    s.coerce (.string text) = .ok (.string t.millisText) :=
  coerce_of_fits (.timestamp type read)

/-- A local time with an offset in a field for points in time. There is one date with one
minute of the day that lie the offset before the local ones, counted in minutes of the
calendar; the field gives the text of that minute, with the second as it is and three digits
of the fraction. It does so whether the offset is written with a colon or without, and for a
local time in UTC also with the letter. -/
theorem coerce_wallTime (s : FieldSchema) (type : s.type = .timestamp) (w : WallTime)
    (o : Offset) :
    ∃ (date : Date) (minute : Nat),
      (∀ (date' : Date) (minute' : Nat),
        minute' < 1440 ∧ 1440 * date'.dayNumber + minute' = w.minuteNumber - o.minutes ↔
          date' = date ∧ minute' = minute) ∧
      let normal := Json.string (date.utcText minute w.second w.millis)
      s.coerce (.string (w.text ++ o.extended)) = .ok normal ∧
      s.coerce (.string (w.text ++ o.basic)) = .ok normal ∧
      (o.minutes = 0 → s.coerce (.string (w.text ++ "Z")) = .ok normal) := by
  obtain ⟨t, found, minute, second, nano⟩ := exists_toTimestamp w o.natAbs_minutes_lt
  have inDay := t.valid.1
  refine ⟨t.date, t.minute, fun date' minute' => ⟨?_, ?_⟩, ?_⟩
  · rintro ⟨inDay', count⟩
    rw [← minute, Timestamp.minuteNumber] at count
    have date : date' = t.date := Date.dayNumber_injective (by omega)
    refine ⟨date, ?_⟩
    rw [date] at count
    omega
  · rintro ⟨rfl, rfl⟩
    exact ⟨inDay, minute⟩
  · rw [← Timestamp.millisText_eq_utcText second nano]
    refine ⟨coerce_of_read? type (Timestamp.read?_wallTime_extended found),
      coerce_of_read? type (Timestamp.read?_wallTime_basic found), fun zero => ?_⟩
    rw [zero] at found
    exact coerce_of_read? type
      (Timestamp.read?_wallTime_strict rfl rfl (by decide) rfl found)

/-- Half past midnight on the first of March of a leap year, with a fraction of four digits. -/
def marchMorning : WallTime where
  date := ⟨2024, 3, 1, by decide⟩
  hour := 0
  minute := 30
  second := 5
  fraction := ['1', '2', '3', '9']
  plain := by decide
  clock := by decide
  digits := by simp
  length_le := by decide

/-- An hour ahead of UTC. -/
def ahead : Offset where
  behind := false
  hour := 1
  minute := 0
  valid := by decide

/-- In UTC it is still the leap day. -/
theorem coerce_wallTime_leapDay :
    let s : FieldSchema := { type := .timestamp }
    s.type = .timestamp ∧
      marchMorning.text ++ ahead.extended = "2024-03-01T00:30:05.1239+01:00" ∧
      s.coerce (.string (marchMorning.text ++ ahead.extended)) =
        .ok (.string "2024-02-29T23:30:05.123Z") ∧
      s.coerce (.string (marchMorning.text ++ ahead.basic)) =
        .ok (.string "2024-02-29T23:30:05.123Z") := by
  intro s
  obtain ⟨date, minute, unique, extended, basic, _⟩ := coerce_wallTime s rfl marchMorning ahead
  obtain ⟨rfl, rfl⟩ := (unique ⟨2024, 2, 29, by decide⟩ 1410).1 (by decide)
  exact ⟨rfl, by decide, extended, basic⟩

end FieldSchema

end FilterQuery

import FilterQuery.Calendar.Date

/-!
# Points in time

A point in time is a date and a time of day in UTC, to the nanosecond. A leap
second is the second 60 of its minute. A local time becomes a point in time by
taking its offset away, which moves it by less than a day.
-/

namespace FilterQuery

/-- A point in time, in UTC. -/
structure Timestamp where
  date : Date
  /-- The minute of the day. -/
  minute : Nat
  second : Nat
  nano : Nat
  valid : minute < 1440 ∧ second ≤ 60 ∧ nano < 1000000000
deriving DecidableEq

namespace Timestamp

/-- The point in time on a date at a time of day, if that is one. -/
def of? (date : Date) (minute second nano : Nat) : Option Timestamp :=
  if h : minute < 1440 ∧ second ≤ 60 ∧ nano < 1000000000 then
    some ⟨date, minute, second, nano, h⟩
  else none

/-- The point in time of a local date and time `offset` minutes ahead of UTC.
None where the date in UTC lies outside the calendar. -/
def ofLocal? (date : Date) (minute second nano : Nat) (offset : Int) : Option Timestamp :=
  let utc : Int := minute - offset
  if utc < 0 then
    date.previous?.bind fun d => of? d (utc + 1440).toNat second nano
  else if utc < 1440 then of? date utc.toNat second nano
  else date.next?.bind fun d => of? d (utc - 1440).toNat second nano

/-- The date and time of day up to the second. -/
def secondsText (t : Timestamp) : String :=
  t.date.text ++ "T" ++ zeroPadded 2 (t.minute / 60) ++ ":" ++
    zeroPadded 2 (t.minute % 60) ++ ":" ++ zeroPadded 2 t.second

/-- The text with exactly three places, the rest cut off. -/
def millisText (t : Timestamp) : String :=
  t.secondsText ++ "." ++ zeroPadded 3 (t.nano / 1000000) ++ "Z"

/-- The text with the places that it needs: none, three, six or nine. -/
def exactText (t : Timestamp) : String :=
  let places :=
    if t.nano = 0 then ""
    else if t.nano % 1000000 = 0 then "." ++ zeroPadded 3 (t.nano / 1000000)
    else if t.nano % 1000 = 0 then "." ++ zeroPadded 6 (t.nano / 1000)
    else "." ++ zeroPadded 9 t.nano
  t.secondsText ++ places ++ "Z"

end Timestamp

end FilterQuery

import FilterQuery.Proofs.Calendar.Times

/-!
# Reading exact points in time back

The exact text of a point in time has as many places as its nanoseconds need, and the
sign of a year that has one. Main statement: the loose form reads every exact text as the
point in time that it was printed from.
-/

namespace FilterQuery

namespace Timestamp

/-- The places of a second that its nanoseconds need, and the letter for UTC, as they are
printed. -/
def exactChars (t : Timestamp) : List Char :=
  if t.nano = 0 then ['Z']
  else if t.nano % 1000000 = 0 then '.' :: ((zeroPadded 3 (t.nano / 1000000)).toList ++ ['Z'])
  else if t.nano % 1000 = 0 then '.' :: ((zeroPadded 6 (t.nano / 1000)).toList ++ ['Z'])
  else '.' :: ((zeroPadded 9 t.nano).toList ++ ['Z'])

theorem toList_exactText (t : Timestamp) :
    t.exactText.toList = t.secondsText.toList ++ t.exactChars := by
  unfold exactText exactChars
  split_ifs <;> simp [String.toList_append]

end Timestamp

namespace Calendar

variable {t : Timestamp} {n : Nat} {rest : List Char}

/-- The places that are left out are zeros. -/
theorem fraction_exactChars (t : Timestamp) : fraction t.exactChars = .ok (t.nano, ['Z']) := by
  obtain ⟨_, _, small⟩ := t.valid
  unfold Timestamp.exactChars
  split_ifs with whole millis micros
  · rw [whole]
    rfl
  · have same : t.nano / 1000000 * 10 ^ (9 - 3) = t.nano := by omega
    rw [fraction_zeroPadded (by decide) (by decide) (by omega), same]
  · have same : t.nano / 1000 * 10 ^ (9 - 6) = t.nano := by omega
    rw [fraction_zeroPadded (by decide) (by decide) (by omega), same]
  · rw [fraction_zeroPadded (by decide) (by decide) small, Nat.sub_self, Nat.pow_zero,
      Nat.mul_one]

theorem looseTime_secondsText (places : fraction rest = .ok (n, ['Z'])) :
    looseTime (t.secondsText.toList ++ rest) = .ok (t.localTime n 0, []) := by
  have blank : dropBlanks ['Z'] = ['Z'] := rfl
  have utc : skipUtc? ['Z'] = none := rfl
  have zero : zone .free ['Z'] = .ok (0, []) := rfl
  rw [looseTime, t.toList_secondsText, List.append_assoc, dateNumbers_text]
  simp [clock_clockChars .allowed places, blank, utc, zero, Timestamp.localTime]

theorem readTime_exactText (t : Timestamp) : readTime looseTime t.exactText = .ok t := by
  have loose : looseTime t.exactText.toList = .ok (t.localTime t.nano 0, []) := by
    rw [t.toList_exactText]
    exact looseTime_secondsText (fraction_exactChars t)
  rw [readTime_of_eq_ok loose, toTimestamp_localTime_zero t.valid.2.2]

end Calendar

end FilterQuery

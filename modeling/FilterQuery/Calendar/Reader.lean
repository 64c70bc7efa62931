import FilterQuery.Calendar.Timestamp
import FilterQuery.Number.Whole
import FilterQuery.Text.Basic

/-!
# Reading dates and points in time

Readers for the texts of dates and points in time. A reader takes its part from
the front of the text, and every failure has a cause. A date has a plain and a
loose form, which also allows blanks around its hyphens. A point in time has
three forms: the strict form of RFC 3339, the form with blanks and an offset
without a colon, and a loose one.
-/

namespace FilterQuery.Calendar

/-- Why a text is no date or no point in time. -/
inductive Fault
  | tooShort
  | tooLong
  | invalid
  | outOfRange
  | impossible
deriving DecidableEq, Repr

/-- The words for a cause. -/
def Fault.message : Fault → String
  | tooShort => "premature end of input"
  | tooLong => "trailing input"
  | invalid => "input contains invalid characters"
  | outOfRange => "input is out of range"
  | impossible => "no possible date and time matching input"

/-- What a reader takes from the front of a text, and the rest. -/
abbrev Reader (α : Type) := List Char → Except Fault (α × List Char)

/-! ## Parts -/

/-- One to `width` digits. -/
def number (width : Nat) : Reader Nat
  | [] => .error .tooShort
  | cs =>
      let ds := (cs.take width).takeWhile Char.isDigit
      if ds = [] then .error .invalid
      else if FitsSigned (digitsValue ds) then .ok (digitsValue ds, cs.drop ds.length)
      else .error .outOfRange

/-- Exactly `width` digits. -/
def fixedNumber (width : Nat) : Reader Nat := fun cs =>
  let ds := (cs.take width).takeWhile Char.isDigit
  if ds.length = width then .ok (digitsValue ds, cs.drop width) else .error .invalid

/-- The character `c`. -/
def literal (c : Char) : Reader Unit
  | [] => .error .tooShort
  | d :: rest => if d = c then .ok ((), rest) else .error .invalid

/-- Keeps what a reader took if it lies between `low` and `high`. -/
def within (low high : Nat) (read : Reader Nat) : Reader Nat := fun cs => do
  let (n, rest) ← read cs
  if low ≤ n ∧ n ≤ high then return (n, rest) else throw .outOfRange

/-- A number of at most two digits after blanks, between `low` and `high`. -/
def field (low high : Nat) : Reader Nat := fun cs =>
  within low high (number 2) (dropBlanks cs)

/-- A year after blanks: at most four digits, or a sign and any number of them. -/
def year : Reader Int := fun cs => do
  let cs := dropBlanks cs
  let (y, rest) ← match cs with
    | '-' :: more => do
        let (n, rest) ← number more.length more
        pure (-(n : Int), rest)
    | '+' :: more => do
        let (n, rest) ← number more.length more
        pure ((n : Int), rest)
    | cs => do
        let (n, rest) ← number 4 cs
        pure ((n : Int), rest)
  if FitsSigned32 y then return (y, rest) else throw .outOfRange

/-- The nanoseconds that follow a point: one to nine digits count, further ones
are passed over. -/
def places : Reader Nat := fun cs => do
  let (n, rest) ← number 9 cs
  let count := cs.length - rest.length
  return (n * powerOfTen (9 - count), rest.dropWhile Char.isDigit)

/-- An optional point with `places`. -/
def fraction : Reader Nat
  | '.' :: rest => places rest
  | cs => .ok (0, cs)

/-! ## Offsets from UTC -/

/-- Two digits and their value. -/
def pair : Reader (Nat × Nat)
  | a :: b :: rest =>
      if a.isDigit ∧ b.isDigit then
        .ok ((a.toNat - '0'.toNat, b.toNat - '0'.toNat), rest)
      else .error .invalid
  | [c] => .error (if c.toNat < 0x80 then .tooShort else .invalid)
  | [] => .error .tooShort

/-- The sign of an offset; the minus may be the typographic one. -/
def sign : Reader Bool
  | [] => .error .tooShort
  | c :: rest =>
      if c = '+' then .ok (false, rest)
      else if c = '-' ∨ c = '\u2212' then .ok (true, rest)
      else .error .invalid

/-- What may stand between the hours and the minutes of an offset. -/
inductive Separator
  /-- Exactly one colon. -/
  | colon
  /-- Any number of colons and blanks. -/
  | free
deriving DecidableEq

/-- Takes a separator away. -/
def Separator.skip : Separator → List Char → Except Fault (List Char)
  | .colon, cs => do
      let (_, rest) ← literal ':' cs
      return rest
  | .free, cs => .ok (cs.dropWhile fun c => c = ':' || isBlank c)

/-- A signed offset in minutes. -/
def offset (separator : Separator) : Reader Int := fun cs => do
  let (negative, cs) ← sign cs
  let ((h, h'), cs) ← pair cs
  let cs ← separator.skip cs
  let ((m, m'), cs) ← pair cs
  if 6 ≤ m then throw .outOfRange
  let minutes : Int := (10 * h + h') * 60 + (10 * m + m')
  return (if negative then -minutes else minutes, cs)

/-- An offset, or the letter that stands for UTC. -/
def zone (separator : Separator) : Reader Int
  | [] => offset separator []
  | c :: rest => if c = 'Z' ∨ c = 'z' then .ok (0, rest) else offset separator (c :: rest)

/-! ## Dates -/

/-- Whether blanks may stand around the marks between the numbers. -/
inductive Blanks
  | none
  | allowed
deriving DecidableEq

def Blanks.skip : Blanks → List Char → List Char
  | .none, cs => cs
  | .allowed, cs => dropBlanks cs

/-- The numbers of a date, joined by hyphens. -/
def dateNumbers (blanks : Blanks) : Reader (Int × Nat × Nat) := fun cs => do
  let (y, cs) ← year cs
  let (_, cs) ← literal '-' (blanks.skip cs)
  let (m, cs) ← field 1 12 cs
  let (_, cs) ← literal '-' (blanks.skip cs)
  let (d, cs) ← field 1 31 cs
  return ((y, m, d), cs)

/-- A whole text as a date. -/
def readDate (blanks : Blanks) (s : String) : Except Fault Date := do
  let ((y, m, d), rest) ← dateNumbers blanks s.toList
  if blanks.skip rest ≠ [] then throw .tooLong
  match Date.of? y m d with
  | some date => return date
  | none => throw .outOfRange

/-! ## Points in time -/

/-- The numbers of a local date and time, before they are looked at together. -/
structure LocalTime where
  year : Int
  month : Nat
  day : Nat
  hour : Nat
  minute : Nat
  second : Nat
  nano : Nat
  offset : Int

/-- The point in time of a local time, whose offset is less than a day. -/
def LocalTime.toTimestamp (t : LocalTime) : Except Fault Timestamp :=
  match Date.of? t.year t.month t.day with
  | none => .error .outOfRange
  | some date =>
      if t.offset.natAbs < 1440 then
        match Timestamp.ofLocal? date (60 * t.hour + t.minute) t.second t.nano t.offset with
        | some p => .ok p
        | none => .error .impossible
      else .error .outOfRange

/-- The mark between the date and the time of day. -/
def isTimeMark (c : Char) : Bool :=
  c = 'T' || c = 't' || c = ' '

def timeMark : Reader Unit
  | [] => .error .tooShort
  | c :: rest => if isTimeMark c then .ok ((), rest) else .error .invalid

/-- The strict form: every number has its full width, and nothing is blank. -/
def strictTime : Reader LocalTime := fun cs => do
  let (y, cs) ← fixedNumber 4 cs
  let (_, cs) ← literal '-' cs
  let (mo, cs) ← within 1 12 (fixedNumber 2) cs
  let (_, cs) ← literal '-' cs
  let (d, cs) ← within 1 31 (fixedNumber 2) cs
  let (_, cs) ← timeMark cs
  let (h, cs) ← within 0 23 (fixedNumber 2) cs
  let (_, cs) ← literal ':' cs
  let (mi, cs) ← within 0 59 (fixedNumber 2) cs
  let (_, cs) ← literal ':' cs
  let (s, cs) ← within 0 60 (fixedNumber 2) cs
  let (n, cs) ← fraction cs
  let (o, cs) ← zone .colon cs
  return (⟨y, mo, d, h, mi, s, n, o⟩, cs)

/-- The time of day, with numbers of one or two digits. -/
def clock (blanks : Blanks) : Reader (Nat × Nat × Nat × Nat) := fun cs => do
  let (h, cs) ← field 0 23 cs
  let (_, cs) ← literal ':' (blanks.skip cs)
  let (m, cs) ← field 0 59 cs
  let (_, cs) ← literal ':' (blanks.skip cs)
  let (s, cs) ← field 0 60 cs
  let (n, cs) ← fraction cs
  return ((h, m, s, n), cs)

/-- The form with a numeric offset, whose colon may be missing. -/
def offsetTime : Reader LocalTime := fun cs => do
  let ((y, mo, d), cs) ← dateNumbers .none cs
  let (_, cs) ← literal 'T' cs
  let ((h, mi, s, n), cs) ← clock .none cs
  let (o, cs) ← offset .free (dropBlanks cs)
  return (⟨y, mo, d, h, mi, s, n, o⟩, cs)

/-- The letters `UTC`, of either case. -/
def skipUtc? : List Char → Option (List Char)
  | a :: b :: c :: rest =>
      if a.toUpper = 'U' ∧ b.toUpper = 'T' ∧ c.toUpper = 'C' then some rest else none
  | _ => none

/-- The loose form: blanks around every part, any form of offset. -/
def looseTime : Reader LocalTime := fun cs => do
  let ((y, mo, d), cs) ← dateNumbers .allowed cs
  let (_, cs) ← timeMark cs
  let ((h, mi, s, n), cs) ← clock .allowed cs
  let cs := dropBlanks cs
  let (o, cs) ← match skipUtc? cs with
    | some rest => pure (0, rest)
    | none => zone .free cs
  return (⟨y, mo, d, h, mi, s, n, o⟩, dropBlanks cs)

/-- A whole text as a point in time, in the form that `read` reads. -/
def readTime (read : Reader LocalTime) (s : String) : Except Fault Timestamp := do
  let (t, rest) ← read s.toList
  if rest ≠ [] then throw .tooLong
  t.toTimestamp

end FilterQuery.Calendar

namespace FilterQuery

/-- The date that a text denotes in its plain form. -/
def Date.read? (s : String) : Option Date :=
  (Calendar.readDate .none s).toOption

/-- The point in time that a text denotes, in the strict form or in the form
with an offset without a colon. -/
def Timestamp.read? (s : String) : Option Timestamp :=
  match Calendar.readTime Calendar.strictTime s with
  | .ok t => some t
  | .error _ => (Calendar.readTime Calendar.offsetTime s).toOption

end FilterQuery

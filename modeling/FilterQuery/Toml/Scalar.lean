import FilterQuery.Calendar.Date
import FilterQuery.Number.Double
import FilterQuery.Number.Whole
import FilterQuery.Toml.Basic

/-!
# Scalars of TOML

Readers for strings, numbers, truth values and dates. A reader takes its part
from the front of the text and returns the rest.
-/

namespace FilterQuery.Toml.Scalar

/-- What a reader takes from the front of a text, and the rest. -/
abbrev Reader (α : Type) := List Char → Option (α × List Char)

/-- The apostrophe, around literal strings. -/
def apostrophe : Char := '\x27'

/-- A blank inside a line. -/
def isGap (c : Char) : Bool := c = ' ' || c = '\t'

def skipGap (cs : List Char) : List Char := cs.dropWhile isGap

/-- Takes a line break. -/
def newline? : List Char → Option (List Char)
  | '\n' :: rest => some rest
  | '\r' :: '\n' :: rest => some rest
  | _ => none

/-- What may stand in a line without an escape. -/
def isText (c : Char) : Bool :=
  c = '\t' || (decide (0x20 ≤ c.toNat) && c.toNat != 0x7f)

/-! ## Strings -/

/-- The character with the given code, if there is one. -/
def charOfCode? (n : Nat) : Option Char :=
  if n.isValidChar then some (Char.ofNat n) else none

/-- The character that an escape stands for, after its backslash. -/
def escape? : Reader Char
  | 'b' :: rest => some ('\x08', rest)
  | 't' :: rest => some ('\t', rest)
  | 'n' :: rest => some ('\n', rest)
  | 'f' :: rest => some ('\x0c', rest)
  | 'r' :: rest => some ('\r', rest)
  | '"' :: rest => some ('"', rest)
  | '\\' :: rest => some ('\\', rest)
  | 'u' :: rest => coded 4 rest
  | 'U' :: rest => coded 8 rest
  | _ => none
where
  /-- A character by `width` hexadecimal digits. -/
  coded (width : Nat) (cs : List Char) : Option (Char × List Char) :=
    if (cs.take width).length = width then do
      let n ← hexValue? (cs.take width)
      let c ← charOfCode? n
      return (c, cs.drop width)
    else none

/-- A basic string after its opening quote. -/
def basic? : Nat → List Char → Reader String
  | 0, _, _ => none
  | fuel + 1, acc, cs =>
      match cs with
      | '"' :: rest => some (String.ofList acc.reverse, rest)
      | '\\' :: rest => do
          let (c, rest) ← escape? rest
          basic? fuel (c :: acc) rest
      | c :: rest => if isText c then basic? fuel (c :: acc) rest else none
      | [] => none

/-- A literal string after its opening apostrophe. -/
def literal? : List Char → Reader String
  | _, [] => none
  | acc, c :: rest =>
      if c = apostrophe then some (String.ofList acc.reverse, rest)
      else if isText c then literal? (c :: acc) rest
      else none

/-- A run of the closing character inside a string of several lines: up to two of
them are text, three close the string, and up to two more are its last
characters. -/
def closing? (mark : Char) (acc : List Char) (cs : List Char) :
    Option (Sum (List Char) (String × List Char)) :=
  let run := cs.takeWhile (· = mark)
  if run.length < 3 then some (.inl (run ++ acc))
  else if run.length ≤ 5 then
    some (.inr (String.ofList (run.drop 3 ++ acc).reverse, cs.drop run.length))
  else none

/-- Takes blanks and line breaks. -/
def skipLines : Nat → List Char → List Char
  | 0, cs => cs
  | fuel + 1, cs =>
      match newline? (skipGap cs) with
      | some rest => skipLines fuel rest
      | none => skipGap cs

/-- A basic string of several lines, after its opening quotes. -/
def basicLines? : Nat → List Char → Reader String
  | 0, _, _ => none
  | fuel + 1, acc, cs =>
      match cs with
      | [] => none
      | '"' :: _ =>
          match closing? '"' acc cs with
          | none => none
          | some (.inr done) => some done
          | some (.inl acc) => basicLines? fuel acc (cs.dropWhile (· = '"'))
      | '\\' :: rest =>
          match newline? (skipGap rest) with
          | some more => basicLines? fuel acc (skipLines more.length more)
          | none => do
              let (c, rest) ← escape? rest
              basicLines? fuel (c :: acc) rest
      | c :: rest =>
          match newline? cs with
          | some more => basicLines? fuel ('\n' :: acc) more
          | none => if isText c then basicLines? fuel (c :: acc) rest else none

/-- A literal string of several lines, after its opening apostrophes. -/
def literalLines? : Nat → List Char → Reader String
  | 0, _, _ => none
  | fuel + 1, acc, cs =>
      match cs with
      | [] => none
      | c :: rest =>
          if c = apostrophe then
            match closing? apostrophe acc cs with
            | none => none
            | some (.inr done) => some done
            | some (.inl acc) => literalLines? fuel acc (cs.dropWhile (· = apostrophe))
          else
            match newline? cs with
            | some more => literalLines? fuel ('\n' :: acc) more
            | none => if isText c then literalLines? fuel (c :: acc) rest else none

/-- A line break right after the opening quotes is no part of a string. -/
def afterOpening (cs : List Char) : List Char :=
  (newline? cs).getD cs

/-- A string of one line, as keys may be. -/
def lineString? : Reader String
  | '"' :: rest => basic? (rest.length + 1) [] rest
  | '\x27' :: rest => literal? [] rest
  | _ => none

/-- A string of any of the four kinds. -/
def string? : Reader String
  | '"' :: '"' :: '"' :: rest => basicLines? (rest.length + 1) [] (afterOpening rest)
  | '\x27' :: '\x27' :: '\x27' :: rest =>
      literalLines? (rest.length + 1) [] (afterOpening rest)
  | cs => lineString? cs

/-! ## Numbers -/

/-- Digits that underscores may separate: one digit at least on both sides of each
underscore. The underscores are left out. -/
def grouped? (isDigit : Char → Bool) : Reader (List Char)
  | [] => none
  | c :: rest => if isDigit c then some (more [c] rest) else none
where
  /-- Further digits; `acc` is reversed. -/
  more (acc : List Char) : List Char → List Char × List Char
    | '_' :: d :: rest =>
        if isDigit d then more (d :: acc) rest else (acc.reverse, '_' :: d :: rest)
    | d :: rest => if isDigit d then more (d :: acc) rest else (acc.reverse, d :: rest)
    | [] => (acc.reverse, [])

/-- An optional sign. -/
def sign : List Char → Option Bool × List Char
  | '+' :: rest => (some false, rest)
  | '-' :: rest => (some true, rest)
  | cs => (none, cs)

/-- Digits of the whole part: a zero stands alone. -/
def whole? (cs : List Char) : Option (List Char × List Char) := do
  let (ds, rest) ← grouped? Char.isDigit cs
  match ds with
  | '0' :: _ :: _ => none
  | ds => some (ds, rest)

/-- An integer that 64 bits hold. -/
def inRange? (n : Int) : Option Int :=
  if FitsSigned n then some n else none

/-- Whether a character is a digit of a base up to sixteen. -/
def isDigitOf (base : Nat) (c : Char) : Bool :=
  match hexDigit? c with
  | some d => decide (d < base)
  | none => false

/-- An integer in another base, after the letter that names it. -/
def based? (base : Nat) (cs : List Char) : Option (Toml × List Char) := do
  let (ds, rest) ← grouped? (isDigitOf base) cs
  let n := ds.foldl (fun n c => base * n + (hexDigit? c).getD 0) 0
  let n ← inRange? n
  return (.integer n, rest)

def integer? (cs : List Char) : Option (Toml × List Char) :=
  match cs with
  | '0' :: 'x' :: rest => based? 16 rest
  | '0' :: 'o' :: rest => based? 8 rest
  | '0' :: 'b' :: rest => based? 2 rest
  | cs => do
      let (negative, cs) := sign cs
      let (ds, rest) ← whole? cs
      let m : Int := digitsValue ds
      let n ← inRange? (if negative = some true then -m else m)
      return (.integer n, rest)

/-- The exponent of a float. -/
def exponent? : List Char → Option (Int × List Char)
  | c :: rest =>
      if c = 'e' ∨ c = 'E' then do
        let (negative, rest) := sign rest
        let (ds, rest) ← grouped? Char.isDigit rest
        let m : Int := digitsValue ds
        return (if negative = some true then -m else m, rest)
      else none
  | [] => none

/-- A float: a whole part with a fraction, an exponent or both, or a named one. A
positive float that overflows is refused. -/
def float? (cs : List Char) : Option (Toml × List Char) :=
  let (negative, cs) := sign cs
  match cs with
  | 'i' :: 'n' :: 'f' :: rest => some (.float, rest)
  | 'n' :: 'a' :: 'n' :: rest => some (.float, rest)
  | cs => do
      let (ds, rest) ← whole? cs
      let (fs, es, rest) ← match rest with
        | '.' :: rest => do
            let (fs, rest) ← grouped? Char.isDigit rest
            match exponent? rest with
            | some (e, rest) => some (fs, e, rest)
            | none => some (fs, 0, rest)
        | rest => do
            let (e, rest) ← exponent? rest
            some ([], e, rest)
      let d := Double.ofDecimal false ⟨digitsValue (ds ++ fs), es - fs.length⟩
      if d.isFinite ∨ negative = some true then some (.float, rest) else none

/-! ## Truth values -/

def boolean? : List Char → Option (Toml × List Char)
  | 't' :: 'r' :: 'u' :: 'e' :: rest => some (.boolean true, rest)
  | 'f' :: 'a' :: 'l' :: 's' :: 'e' :: rest => some (.boolean false, rest)
  | _ => none

/-! ## Dates and times -/

/-- Exactly `width` digits, between `low` and `high`. -/
def number? (width low high : Nat) (cs : List Char) : Option (Nat × List Char) :=
  let ds := (cs.take width).takeWhile Char.isDigit
  if ds.length = width ∧ low ≤ digitsValue ds ∧ digitsValue ds ≤ high then
    some (digitsValue ds, cs.drop width)
  else none

/-- The character `c`. -/
def mark? (c : Char) : List Char → Option (List Char)
  | d :: rest => if d = c then some rest else none
  | [] => none

def date? (cs : List Char) : Option (List Char) := do
  let (y, cs) ← number? 4 0 9999 cs
  let cs ← mark? '-' cs
  let (m, cs) ← number? 2 1 12 cs
  let cs ← mark? '-' cs
  let (_, cs) ← number? 2 1 (daysInMonth y m) cs
  return cs

/-- The places of a second, after their point. -/
def places (cs : List Char) : List Char :=
  match cs with
  | '.' :: c :: rest => if c.isDigit then rest.dropWhile Char.isDigit else cs
  | cs => cs

def time? (cs : List Char) : Option (List Char) := do
  let (_, cs) ← number? 2 0 23 cs
  let cs ← mark? ':' cs
  let (_, cs) ← number? 2 0 59 cs
  let cs ← mark? ':' cs
  let (_, cs) ← number? 2 0 60 cs
  return places cs

/-- An offset from UTC. -/
def offset? : List Char → Option (List Char)
  | 'Z' :: rest => some rest
  | 'z' :: rest => some rest
  | c :: rest =>
      if c = '+' ∨ c = '-' then do
        let (_, cs) ← number? 2 0 23 rest
        let cs ← mark? ':' cs
        let (_, cs) ← number? 2 0 59 cs
        return cs
      else none
  | [] => none

/-- A date, a date and time with or without an offset, or a time. -/
def dateTime? (cs : List Char) : Option (Toml × List Char) :=
  match date? cs with
  | none => (time? cs).map fun rest => (.dateTime, rest)
  | some rest =>
      match rest with
      | c :: more =>
          if c = 'T' ∨ c = 't' ∨ c = ' ' then
            match time? more with
            | some rest => some (.dateTime, (offset? rest).getD rest)
            | none => if c = ' ' then some (.dateTime, rest) else none
          else some (.dateTime, rest)
      | [] => some (.dateTime, [])

end FilterQuery.Toml.Scalar

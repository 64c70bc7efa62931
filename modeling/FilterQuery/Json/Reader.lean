import FilterQuery.Json.Basic
import FilterQuery.Number.Whole

/-!
# Reading JSON text

A reader for JSON text. Every step returns what it read and the rest of the
text. Nesting is limited, an object keeps the last value of a repeated key, and
a number beyond the greatest double is refused. A number that is not an integer is
rounded twice, its digits first and then their product with a power of ten, so it may
be off the nearest double by one unit in the last place.
-/

namespace FilterQuery.Json.Reader

/-- The blanks that JSON allows between tokens. -/
def isGap (c : Char) : Bool :=
  c = ' ' || c = '\n' || c = '\t' || c = '\r'

def skipGap (cs : List Char) : List Char :=
  cs.dropWhile isGap

/-- The first half of a pair that stands for one character. -/
def isLeading (u : Nat) : Bool := decide (0xD800 ≤ u ∧ u < 0xDC00)

/-- The second half of such a pair. -/
def isTrailing (u : Nat) : Bool := decide (0xDC00 ≤ u ∧ u < 0xE000)

/-- The character that a pair of halves stands for. -/
def joinPair (leading trailing : Nat) : Char :=
  Char.ofNat (0x10000 + (leading - 0xD800) * 0x400 + (trailing - 0xDC00))

/-- The character that a letter stands for after a backslash. -/
def escaped? (c : Char) : Option Char :=
  if c = '"' ∨ c = '\\' ∨ c = '/' then some c
  else if c = 'b' then some '\x08'
  else if c = 'f' then some '\x0c'
  else if c = 'n' then some '\n'
  else if c = 'r' then some '\r'
  else if c = 't' then some '\t'
  else none

/-- A string after its opening quote; `acc` holds what was read, reversed. -/
def stringBody : List Char → List Char → Option (String × List Char)
  | _, [] => none
  | acc, '"' :: rest => some (String.ofList acc.reverse, rest)
  | acc, '\\' :: 'u' :: a :: b :: c :: d :: rest => do
      let u ← hexValue? [a, b, c, d]
      if isLeading u then
        match rest with
        | '\\' :: 'u' :: e :: f :: g :: h :: rest => do
            let v ← hexValue? [e, f, g, h]
            if isTrailing v then stringBody (joinPair u v :: acc) rest else none
        | _ => none
      else if isTrailing u then none
      else stringBody (Char.ofNat u :: acc) rest
  | acc, '\\' :: e :: rest => do
      let c ← escaped? e
      stringBody (c :: acc) rest
  | acc, c :: rest =>
      if c.toNat < 0x20 ∨ c = '\\' then none else stringBody (c :: acc) rest

/-- A nonempty run of digits. -/
def digits? (cs : List Char) : Option (List Char × List Char) :=
  match cs.span Char.isDigit with
  | ([], _) => none
  | (ds, rest) => some (ds, rest)

/-- The whole part of a number: a zero, or digits that do not start with one. -/
def whole? (cs : List Char) : Option (List Char × List Char) := do
  let (ds, rest) ← digits? cs
  if ds.head? = some '0' ∧ ds ≠ ['0'] then none else some (ds, rest)

/-- The digits after a point, or nothing where there is no point. -/
def fraction? : List Char → Option (List Char × List Char)
  | '.' :: rest => digits? rest
  | cs => some ([], cs)

/-- An exponent, or `none` where there is none. -/
def exponent? : List Char → Option (Option Int × List Char)
  | c :: rest =>
      if c = 'e' ∨ c = 'E' then do
        let (negative, rest) := match rest with
          | '-' :: more => (true, more)
          | '+' :: more => (false, more)
          | more => (false, more)
        let (ds, rest) ← digits? rest
        let n : Int := digitsValue ds
        return (some (if negative then -n else n), rest)
      else some (none, c :: rest)
  | [] => some (none, [])

/-- Appends digits to a number as long as a word of 64 bits holds it; with the digits
that are left over. -/
def gather : Nat → List Char → Nat × List Char
  | n, [] => (n, [])
  | n, c :: cs =>
      let m := 10 * n + (c.toNat - '0'.toNat)
      if FitsUnsigned m then gather m cs else (n, c :: cs)

/-- The number that the parts of a numeral denote. A numeral without point and
exponent is an integer where 64 bits hold it, except for a negative zero. Otherwise
the digits that a word of 64 bits holds are rounded, and shifted by the exponent. A whole
digit that is left over counts as a zero, also when digits of the fraction still fit. -/
def numeral? (negative : Bool) (whole fraction : List Char) (exponent : Option Int) :
    Option Number :=
  let (magnitude, uncounted) := gather 0 whole
  let (significand, dropped) := gather magnitude fraction
  let places : Int := fraction.length - dropped.length
  let asDouble := Number.ofDouble?
    ((Double.ofRatio negative significand 1).shift (exponent.getD 0 + uncounted.length - places))
  let n : Int := if negative then -(magnitude : Int) else magnitude
  if uncounted = [] ∧ fraction = [] ∧ exponent = none ∧ ¬(negative ∧ magnitude = 0) then
    match Number.ofInt? n with
    | some m => some m
    | none => asDouble
  else asDouble

def number? (cs : List Char) : Option (Number × List Char) := do
  let (negative, cs) := match cs with
    | '-' :: rest => (true, rest)
    | cs => (false, cs)
  let (whole, cs) ← whole? cs
  let (fraction, cs) ← fraction? cs
  let (exponent, cs) ← exponent? cs
  let n ← numeral? negative whole fraction exponent
  return (n, cs)

mutual

/-- A value, after the gap before it. `depth` is how many containers may still
be opened; `fuel` bounds the steps, and the length of the text is enough. -/
def value? : Nat → Nat → List Char → Option (Json × List Char)
  | 0, _, _ => none
  | fuel + 1, depth, cs =>
      match skipGap cs with
      | 'n' :: 'u' :: 'l' :: 'l' :: rest => some (.null, rest)
      | 't' :: 'r' :: 'u' :: 'e' :: rest => some (.bool true, rest)
      | 'f' :: 'a' :: 'l' :: 's' :: 'e' :: rest => some (.bool false, rest)
      | '"' :: rest => do
          let (s, rest) ← stringBody [] rest
          return (.string s, rest)
      | '[' :: rest =>
          match depth with
          | 0 => none
          | depth + 1 =>
              match skipGap rest with
              | ']' :: rest => some (.array [], rest)
              | rest => do
                  let (items, rest) ← elements? fuel depth [] rest
                  return (.array items, rest)
      | '\x7b' :: rest =>
          match depth with
          | 0 => none
          | depth + 1 =>
              match skipGap rest with
              | '\x7d' :: rest => some (.object [], rest)
              | rest => do
                  let (ms, rest) ← members? fuel depth [] rest
                  return (.object ms, rest)
      | cs => do
          let (n, rest) ← number? cs
          return (.number n, rest)

/-- The elements of an array up to its closing bracket; `acc` is reversed. -/
def elements? : Nat → Nat → List Json → List Char → Option (List Json × List Char)
  | 0, _, _, _ => none
  | fuel + 1, depth, acc, cs => do
      let (v, rest) ← value? fuel depth cs
      match skipGap rest with
      | ',' :: rest => elements? fuel depth (v :: acc) rest
      | ']' :: rest => some ((v :: acc).reverse, rest)
      | _ => none

/-- The members of an object up to its closing brace. -/
def members? : Nat → Nat → Members → List Char → Option (Members × List Char)
  | 0, _, _, _ => none
  | fuel + 1, depth, acc, cs =>
      match skipGap cs with
      | '"' :: rest => do
          let (key, rest) ← stringBody [] rest
          match skipGap rest with
          | ':' :: rest => do
              let (v, rest) ← value? fuel depth rest
              match skipGap rest with
              | ',' :: rest => members? fuel depth (acc.insert key v) rest
              | '\x7d' :: rest => some (acc.insert key v, rest)
              | _ => none
          | _ => none
      | _ => none

end

end FilterQuery.Json.Reader

namespace FilterQuery.Json

/-- How many containers a document may nest. -/
def nestingLimit : Nat := 127

/-- A value at the front of a text. -/
structure Front where
  value : Json
  /-- Whether nothing but blanks follows the value. -/
  isWhole : Bool

/-- The value that a text begins with, nested no deeper than `depth`. -/
def frontWithin? (depth : Nat) (text : String) : Option Front :=
  let cs := text.toList
  (Reader.value? (2 * cs.length + 1) depth cs).map fun r => ⟨r.1, (Reader.skipGap r.2).isEmpty⟩

/-- The value that a text begins with. -/
def front? (text : String) : Option Front :=
  frontWithin? nestingLimit text

/-- The value that a whole text denotes, nested no deeper than `depth`. -/
def readWithin? (depth : Nat) (text : String) : Option Json := do
  let front ← frontWithin? depth text
  if front.isWhole then some front.value else none

/-- The value that a whole text denotes. -/
def read? (text : String) : Option Json :=
  readWithin? nestingLimit text

end FilterQuery.Json

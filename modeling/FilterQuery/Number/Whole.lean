import FilterQuery.Number.Decimal

/-!
# Whole numbers

The whole numbers that words of 64 and 32 bits hold, with a sign or without,
unsigned words of 64 bits as they stand in texts, and natural numbers in
hexadecimal notation: digits of either case are read, and lower case is written.
-/

namespace FilterQuery

/-! ## Ranges of words -/

/-- A word of 64 bits with a sign holds the number. -/
abbrev FitsSigned (n : Int) : Prop :=
  -9223372036854775808 ≤ n ∧ n ≤ 9223372036854775807

/-- A word of 64 bits without a sign holds the number. -/
abbrev FitsUnsigned (n : Int) : Prop :=
  0 ≤ n ∧ n ≤ 18446744073709551615

/-- A word of 64 bits holds the number, with a sign or without. -/
abbrev FitsWord (n : Int) : Prop :=
  -9223372036854775808 ≤ n ∧ n ≤ 18446744073709551615

/-- A word of 32 bits with a sign holds the number. -/
abbrev FitsSigned32 (n : Int) : Prop :=
  -2147483648 ≤ n ∧ n ≤ 2147483647

/-- A word of 32 bits without a sign holds the number. -/
abbrev FitsUnsigned32 (n : Int) : Prop :=
  0 ≤ n ∧ n ≤ 4294967295

theorem fitsWord_iff (n : Int) : FitsWord n ↔ FitsSigned n ∨ FitsUnsigned n := by
  omega

/-! ## Words in texts -/

/-- The number of 64 bits that a text denotes: digits, after an optional plus. -/
def readWord? (s : String) : Option UInt64 :=
  let ds := match s.toList with
    | '+' :: rest => rest
    | cs => cs
  if ds ≠ [] ∧ ds.all Char.isDigit ∧ FitsUnsigned (digitsValue ds) then
    some (UInt64.ofNat (digitsValue ds))
  else none

/-! ## Hexadecimal notation -/

/-- The value of a hexadecimal digit of either case. -/
def hexDigit? (c : Char) : Option Nat :=
  if c.isDigit then some (c.toNat - '0'.toNat)
  else if 'a' ≤ c ∧ c ≤ 'f' then some (c.toNat - 'a'.toNat + 10)
  else if 'A' ≤ c ∧ c ≤ 'F' then some (c.toNat - 'A'.toNat + 10)
  else none

/-- The value of a run of hexadecimal digits, read from the left. -/
def hexValue? (ds : List Char) : Option Nat :=
  ds.foldlM (fun n c => (hexDigit? c).map (16 * n + ·)) 0

/-- The hexadecimal digits of `n`, without leading zeros; zero is `0`. -/
def hexDigits (n : Nat) : List Char :=
  Nat.toDigits 16 n

/-- The hexadecimal digits of `n`, padded with zeros on the left to `width`. -/
def hexPadded (width n : Nat) : List Char :=
  List.replicate (width - (hexDigits n).length) '0' ++ hexDigits n

end FilterQuery

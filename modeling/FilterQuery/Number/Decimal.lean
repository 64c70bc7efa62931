/-!
# Decimal numbers

A natural number in decimal notation, and `digits · 10 ^ exponent`, written
with or without an exponent. Both ways of writing keep every digit, so the
text determines the number.
-/

namespace FilterQuery

/-- The power of ten with the given exponent. -/
def powerOfTen (exponent : Nat) : Nat :=
  Nat.pow 10 exponent

/-- The value of a run of decimal digits, read from the left. -/
def digitsValue (ds : List Char) : Nat :=
  ds.foldl (fun n c => 10 * n + (c.toNat - '0'.toNat)) 0

/-- The decimal digits of `n`, without leading zeros; zero is `"0"`. -/
def decimalDigits (n : Nat) : List Char :=
  Nat.toDigits 10 n

theorem decimalDigits_injective {m n : Nat} (h : decimalDigits m = decimalDigits n) : m = n :=
  calc
    m = Nat.ofDigitChars 10 (decimalDigits m) 0 := Nat.ofDigitChars_ten_toDigits.symm
    _ = Nat.ofDigitChars 10 (decimalDigits n) 0 := by rw [h]
    _ = n := Nat.ofDigitChars_ten_toDigits

/-- How many decimal digits `n` has. -/
def digitCount (n : Nat) : Nat :=
  (decimalDigits n).length

/-- `n` in decimal notation, padded with zeros on the left to `width`. -/
def zeroPadded (width n : Nat) : String :=
  String.ofList (List.replicate (width - digitCount n) '0' ++ decimalDigits n)

/-- The decimal number `digits · 10 ^ exponent`. -/
structure Decimal where
  digits : Nat
  exponent : Int
deriving DecidableEq, Repr

namespace Decimal

/-- The same number without trailing zeros in its digits; `fuel` bounds how
many are dropped, and `digitCount` of them is always enough. -/
def dropZeros : Nat → Decimal → Decimal
  | 0, d => d
  | fuel + 1, d =>
      if d.digits ≠ 0 ∧ d.digits % 10 = 0 then
        dropZeros fuel ⟨d.digits / 10, d.exponent + 1⟩
      else d

/-- The same number with as few digits as possible. -/
def normal (d : Decimal) : Decimal :=
  if d.digits = 0 then ⟨0, 0⟩ else dropZeros (digitCount d.digits) d

/-- The exponent of the leading digit: `d` lies in `[10 ^ e, 10 ^ (e + 1))`. -/
def leadingExponent (d : Decimal) : Int :=
  d.exponent + digitCount d.digits - 1

/-- Positional notation. `wholeSuffix` follows a number that has no fraction. -/
def positional (wholeSuffix : String) (d : Decimal) : String :=
  let ds := decimalDigits d.digits
  if 0 ≤ d.exponent then
    String.ofList (ds ++ List.replicate d.exponent.toNat '0') ++ wholeSuffix
  else
    let places := (-d.exponent).toNat
    if places < ds.length then
      String.ofList (ds.take (ds.length - places)) ++ "." ++
        String.ofList (ds.drop (ds.length - places))
    else
      "0." ++ String.ofList (List.replicate (places - ds.length) '0' ++ ds)

/-- Exponent notation: one digit before the point, and a sign on every
exponent. -/
def scientific (d : Decimal) : String :=
  let ds := decimalDigits d.digits
  let e := d.leadingExponent
  let mantissa := match ds with
    | [] => ""
    | [c] => String.ofList [c]
    | c :: rest => String.ofList (c :: '.' :: rest)
  mantissa ++ "e" ++ (if e < 0 then "-" else "+") ++
    String.ofList (decimalDigits e.natAbs)

end Decimal

end FilterQuery

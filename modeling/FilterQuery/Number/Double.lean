import FilterQuery.Number.Decimal

/-!
# Binary64 numbers

A `Double` is its bit pattern. A finite one is exactly
`± significand · 2 ^ exponent`, and every operation here is exact arithmetic on
that pair: rounding a quotient to the nearest double (a half goes to the even
neighbour), reading a decimal, products and quotients of doubles, and finding the
fewest decimal digits that read back.
-/

namespace FilterQuery

/-- A binary64 number, by its bit pattern. -/
structure Double where
  bits : UInt64
deriving DecidableEq, Repr

namespace Double

/-- The power of two with the given exponent. -/
def powerOfTwo (exponent : Nat) : Nat :=
  Nat.pow 2 exponent

/-- How many values the fifty-two fraction bits have. -/
def fractionCount : Nat := powerOfTwo 52

/-- How many values the exponent bits and the fraction bits have together: the
weight of the sign bit. -/
def magnitudeCount : Nat := powerOfTwo 63

/-- The magnitude of infinity: all exponent bits are set. -/
def infinityMagnitude : Nat := 2047 * fractionCount

/-- The sign bit. -/
def isNegative (d : Double) : Bool :=
  decide (magnitudeCount ≤ d.bits.toNat)

/-- The eleven exponent bits. -/
def exponentField (d : Double) : Nat :=
  d.bits.toNat / fractionCount % 2048

/-- The fifty-two fraction bits. -/
def fractionField (d : Double) : Nat :=
  d.bits.toNat % fractionCount

def isFinite (d : Double) : Bool :=
  decide (d.exponentField ≠ 2047)

def isNaN (d : Double) : Bool :=
  decide (d.exponentField = 2047 ∧ d.fractionField ≠ 0)

/-- A zero of either sign. -/
def isZero (d : Double) : Bool :=
  decide (d.exponentField = 0 ∧ d.fractionField = 0)

/-- With `exponent`, the magnitude of a finite double:
`significand · 2 ^ exponent`. -/
def significand (d : Double) : Nat :=
  if d.exponentField = 0 then d.fractionField else fractionCount + d.fractionField

/-- The power of two that `significand` is counted in. -/
def exponent (d : Double) : Int :=
  (if d.exponentField = 0 then 1 else (d.exponentField : Int)) - 1075

/-- The double with the given sign whose magnitude has the bit pattern
`magnitude`. Magnitudes are ordered as their bit patterns are, and anything
beyond the largest finite one is infinity. -/
def ofMagnitude (negative : Bool) (magnitude : Nat) : Double :=
  let m := min magnitude infinityMagnitude
  ⟨UInt64.ofNat (if negative then magnitudeCount + m else m)⟩

def infinity (negative : Bool) : Double :=
  ofMagnitude negative infinityMagnitude

/-- The one NaN that this library makes. -/
def nan : Double := ⟨0x7FF8000000000000⟩

/-! ## Rounding -/

/-- `num / den` rounded to a whole number, a half to the even one. -/
def roundHalfEven (num den : Nat) : Nat :=
  let q := num / den
  let r := num % den
  if 2 * r < den then q
  else if 2 * r = den then q + q % 2
  else q + 1

/-- `num / den` in units of `2 ^ e`, as a quotient. -/
def scaled (num den : Nat) (e : Int) : Nat × Nat :=
  if 0 ≤ e then (num, den * powerOfTwo e.toNat) else (num * powerOfTwo (-e).toNat, den)

/-- The exponent at which `num / den` has a significand of 53 bits, or the
least exponent there is. -/
def roundingExponent (num den : Nat) : Int :=
  let e := max ((num.log2 : Int) - den.log2 - 53) (-1074)
  let (n, d) := scaled num den e
  if n / d < 2 * fractionCount then e else e + 1

/-- The double nearest to `± num / den`, a half going to the even neighbour.
The bit pattern of `q · 2 ^ e` is `(e + 1074) · 2 ^ 52 + q`, also when `q` is
below `2 ^ 52` (then `e` is `-1074`) or has been rounded up to `2 ^ 53`. -/
def ofRatio (negative : Bool) (num den : Nat) : Double :=
  if num = 0 then ofMagnitude negative 0
  else
    let e := roundingExponent num den
    let (n, d) := scaled num den e
    ofMagnitude negative ((e + 1074).toNat * fractionCount + roundHalfEven n d)

/-- The double nearest to a whole number. -/
def ofInt (n : Int) : Double :=
  ofRatio (decide (n < 0)) n.natAbs 1

/-- The double nearest to `± digits · 10 ^ exponent`. Decimals far outside the
range need no arithmetic: they are infinity or zero. -/
def ofDecimal (negative : Bool) (d : Decimal) : Double :=
  if d.digits = 0 then ofMagnitude negative 0
  else if 310 < d.leadingExponent then infinity negative
  else if d.leadingExponent < -330 then ofMagnitude negative 0
  else if 0 ≤ d.exponent then ofRatio negative (d.digits * powerOfTen d.exponent.toNat) 1
  else ofRatio negative d.digits (powerOfTen (-d.exponent).toNat)

/-! ## Products and quotients -/

/-- The magnitude of a finite double, as a numerator and a denominator. -/
def ratio (d : Double) : Nat × Nat :=
  if 0 ≤ d.exponent then (d.significand * powerOfTwo d.exponent.toNat, 1)
  else (d.significand, powerOfTwo (-d.exponent).toNat)

/-- The double nearest to the product of two finite doubles. -/
def mul (a b : Double) : Double :=
  let (n, d) := a.ratio
  let (m, e) := b.ratio
  ofRatio (a.isNegative != b.isNegative) (n * m) (d * e)

/-- The double nearest to the quotient of two finite doubles, the second not zero. -/
def div (a b : Double) : Double :=
  let (n, d) := a.ratio
  let (m, e) := b.ratio
  ofRatio (a.isNegative != b.isNegative) (n * e) (d * m)

/-- The exponent of the greatest power of ten among the doubles. -/
def greatestPower : Nat := 308

/-- The double nearest to a power of ten. -/
def tenTo (exponent : Nat) : Double :=
  ofRatio false (powerOfTen exponent) 1

/-- `d / 10 ^ places`, rounded. A power of ten that no double is near to is divided by in
steps, each of which rounds. -/
def shiftDown (d : Double) (places : Nat) : Double :=
  if places ≤ greatestPower then d.div (tenTo places)
  else if d.isZero then d
  else shiftDown (d.div (tenTo greatestPower)) (places - greatestPower)
termination_by places
decreasing_by simp_all [greatestPower]; omega

/-- `d · 10 ^ exponent`, rounded; infinity where that is beyond the greatest double. -/
def shift (d : Double) (exponent : Int) : Double :=
  if exponent < 0 then d.shiftDown (-exponent).toNat
  else if exponent ≤ greatestPower then d.mul (tenTo exponent.toNat)
  else if d.isZero then d
  else infinity d.isNegative

/-! ## Comparing and converting -/

/-- Numeric equality: a NaN differs from itself, and the two zeros agree. -/
def equal (a b : Double) : Bool :=
  !a.isNaN && !b.isNaN && (decide (a = b) || (a.isZero && b.isZero))

/-- The whole number that a finite double denotes, if it denotes one. -/
def toInt? (d : Double) : Option Int :=
  if d.isFinite then
    let magnitude : Option Nat :=
      if 0 ≤ d.exponent then some (d.significand * powerOfTwo d.exponent.toNat)
      else
        let unit := powerOfTwo (-d.exponent).toNat
        if d.significand % unit = 0 then some (d.significand / unit) else none
    magnitude.map fun m => if d.isNegative then -(m : Int) else m
  else none

/-! ## The fewest digits that read back -/

/-- Which of two equally near decimals is written. -/
inductive Tie
  | even
  | up
deriving DecidableEq, Repr

/-- The positive rationals that round to a magnitude, over one denominator:
the value itself, the two ends, and whether the ends round to it as well. -/
structure Span where
  low : Nat
  value : Nat
  high : Nat
  denominator : Nat
  closed : Bool

/-- The span of a finite nonzero double. In quarters of a unit in the last
place the value is `4 · significand`; the ends are half a unit away, or a
quarter below where the exponent changes. A half goes to the even neighbour,
so the ends belong to even significands. -/
def span (d : Double) : Span :=
  let m := d.significand
  let below := if m = fractionCount ∧ 1 < d.exponentField then 1 else 2
  let up := powerOfTwo (d.exponent - 2).toNat
  let down := powerOfTwo (2 - d.exponent).toNat
  { low := (4 * m - below) * up, value := 4 * m * up, high := (4 * m + 2) * up,
    denominator := down, closed := decide (m % 2 = 0) }

namespace Span

/-- Where `count · 10 ^ k` lies, compared with a numerator of the span:
both sides brought to whole numbers. -/
def gridPoint (s : Span) (count : Nat) (k : Int) : Nat :=
  count * s.denominator * powerOfTen k.toNat

/-- A numerator of the span on the scale of `gridPoint`. -/
def atScale (num : Nat) (k : Int) : Nat :=
  num * powerOfTen (-k).toNat

def contains (s : Span) (count : Nat) (k : Int) : Bool :=
  let p := s.gridPoint count k
  if s.closed then decide (atScale s.low k ≤ p ∧ p ≤ atScale s.high k)
  else decide (atScale s.low k < p ∧ p < atScale s.high k)

/-- The greatest multiple of `10 ^ k` that is not above the value. -/
def floorOnGrid (s : Span) (k : Int) : Nat :=
  atScale s.value k / (s.denominator * powerOfTen k.toNat)

/-- The point of the grid of step `10 ^ k` that is in the span and nearest to
the value. -/
def nearestOnGrid (s : Span) (tie : Tie) (k : Int) : Option Decimal :=
  let c := s.floorOnGrid k
  let v := atScale s.value k
  let below := v - s.gridPoint c k
  let above := s.gridPoint (c + 1) k - v
  let lower : Bool := s.contains c k
  let upper : Bool := s.contains (c + 1) k
  let preferUpper : Bool :=
    if above < below then true
    else if below < above then false
    else match tie with
      | .up => true
      | .even => decide (c % 2 = 1)
  if lower && upper then some ⟨if preferUpper then c + 1 else c, k⟩
  else if lower then some ⟨c, k⟩
  else if upper then some ⟨c + 1, k⟩
  else none

/-- The exponent of the value's leading decimal digit. -/
def leadingExponent (s : Span) : Int :=
  let whole := s.value / s.denominator
  if whole ≠ 0 then (digitCount whole : Int) - 1
  else -(digitCount ((s.denominator + s.value - 1) / s.value - 1) : Int)

end Span

/-- The decimal with the fewest digits that reads back as the magnitude of
`d`, the nearest such one, and of two equally near ones the one that `tie`
names. Seventeen digits always suffice. -/
def shortest (tie : Tie) (d : Double) : Decimal :=
  if d.isZero then ⟨0, 0⟩
  else
    let s := d.span
    let top := s.leadingExponent
    let grids := (List.range 17).map fun (n : Nat) => top - (n : Int)
    match grids.findSome? (s.nearestOnGrid tie) with
    | some r => r.normal
    | none => ⟨s.floorOnGrid (top - 16), top - 16⟩

end Double

end FilterQuery

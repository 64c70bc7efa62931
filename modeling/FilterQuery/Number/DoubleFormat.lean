import FilterQuery.Number.Double

/-!
# Writing doubles

Every format writes the fewest digits that read back. What differs between
formats is gathered in one record: where exponents begin, how a whole number
ends, which of two equally near decimals is taken, and the names of what is not
a number.
-/

namespace FilterQuery

/-- The choices of a text format for doubles. -/
structure DoubleFormat where
  /-- Which of two equally near shortest decimals is written. -/
  tie : Double.Tie
  /-- What ends a whole number in positional notation. -/
  wholeSuffix : String
  /-- The least and greatest leading exponent written positionally; `none`
  writes every number positionally. -/
  positionalRange : Option (Int × Int)
  nan : String
  infinity : String

namespace DoubleFormat

/-- Whether a decimal is written without an exponent. -/
def isPositional (f : DoubleFormat) (d : Decimal) : Bool :=
  match f.positionalRange with
  | none => true
  | some (least, greatest) =>
      decide (d.digits = 0 ∨ (least ≤ d.leadingExponent ∧ d.leadingExponent ≤ greatest))

/-- The text of a double; the sign of a zero is kept. -/
def write (f : DoubleFormat) (d : Double) : String :=
  if d.isNaN then f.nan
  else
    let magnitude :=
      if d.isFinite then
        let r := d.shortest f.tie
        if f.isPositional r then r.positional f.wholeSuffix else r.scientific
      else f.infinity
    if d.isNegative then "-" ++ magnitude else magnitude

end DoubleFormat

end FilterQuery

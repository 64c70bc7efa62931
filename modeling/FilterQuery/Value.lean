import FilterQuery.Calendar.Timestamp
import FilterQuery.Number.DoubleFormat
import FilterQuery.Text.Quotation

/-!
# Literal values

What a condition compares a field with. A value has a plain text and a written
form in the query language; the written form quotes texts, dates, points in
time and arrays, and writes the rest as it is.
-/

namespace FilterQuery

/-- A literal value. -/
inductive Value
  | null
  | bool (b : Bool)
  | int (n : Int64)
  | double (d : Double)
  | text (s : String)
  | date (d : Date)
  | timestamp (t : Timestamp)
  | array (items : List Value)

namespace Value

/-- Doubles have no exponent and no fraction that they do not need; of two
equally near shortest decimals the greater magnitude is taken. -/
def doubleFormat : DoubleFormat where
  tie := .up
  wholeSuffix := ""
  positionalRange := none
  nan := "NaN"
  infinity := "inf"

mutual

/-- The text of a value, without quotes; the elements of an array are joined by
commas. -/
def plain : Value → String
  | .null => "null"
  | .bool b => if b then "true" else "false"
  | .int n => toString n.toInt
  | .double d => doubleFormat.write d
  | .text s => s
  | .date d => d.text
  | .timestamp t => t.millisText
  | .array items => ",".intercalate (plains items)

/-- The texts of the elements of an array. -/
def plains : List Value → List String
  | [] => []
  | v :: vs => plain v :: plains vs

end

/-- Whether a value is written as a string literal. -/
def isQuoted : Value → Bool
  | .null | .bool _ | .int _ | .double _ => false
  | .text _ | .date _ | .timestamp _ | .array _ => true

/-- The written form of a value in the query language. -/
def written (v : Value) : String :=
  if v.isQuoted then Literal.quote v.plain else v.plain

def isNull : Value → Bool
  | .null => true
  | _ => false

mutual

/-- Whether two values are the same, doubles compared as numbers: a NaN is not
the same as itself. -/
def same : Value → Value → Bool
  | .null, .null => true
  | .bool a, .bool b => a == b
  | .int a, .int b => a == b
  | .double a, .double b => a.equal b
  | .text a, .text b => a == b
  | .date a, .date b => decide (a = b)
  | .timestamp a, .timestamp b => decide (a = b)
  | .array as, .array bs => sameAll as bs
  | _, _ => false

/-- `same`, element by element. -/
def sameAll : List Value → List Value → Bool
  | [], [] => true
  | a :: as, b :: bs => same a b && sameAll as bs
  | _, _ => false

end

end Value

end FilterQuery

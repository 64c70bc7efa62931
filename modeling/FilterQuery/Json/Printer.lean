import FilterQuery.Json.Basic
import FilterQuery.Number.DoubleFormat
import FilterQuery.Number.Whole

/-!
# JSON text

The compact text of a JSON value: no blanks, members in their order, and only
the characters escaped that have to be.
-/

namespace FilterQuery

/-- Doubles from `0.00001` to below `10 ^ 16` are written positionally, always
with a fraction; of two equally near shortest decimals the even one is taken. -/
def Number.format : DoubleFormat where
  tie := .even
  wholeSuffix := ".0"
  positionalRange := some (-5, 15)
  nan := "null"
  infinity := "null"

/-- The text of a number. -/
def Number.text : Number → String
  | int n _ => toString n
  | double d _ => Number.format.write d

namespace Json

/-- One character inside a JSON string. -/
def escapeChar (c : Char) : List Char :=
  if c = '"' ∨ c = '\\' then ['\\', c]
  else if c = '\x08' then ['\\', 'b']
  else if c = '\x09' then ['\\', 't']
  else if c = '\x0a' then ['\\', 'n']
  else if c = '\x0c' then ['\\', 'f']
  else if c = '\x0d' then ['\\', 'r']
  else if c.toNat < 0x20 then '\\' :: 'u' :: hexPadded 4 c.toNat
  else [c]

/-- `s` as a JSON string. -/
def quote (s : String) : String :=
  String.ofList ('"' :: (s.toList.flatMap escapeChar ++ ['"']))

mutual

/-- The compact text of a value. -/
def text : Json → String
  | .null => "null"
  | .bool b => if b then "true" else "false"
  | .number n => n.text
  | .string s => quote s
  | .array items => "[" ++ ",".intercalate (texts items) ++ "]"
  | .object ms => "\x7b" ++ ",".intercalate (memberTexts ms) ++ "\x7d"

/-- The texts of the elements of an array. -/
def texts : List Json → List String
  | [] => []
  | v :: vs => text v :: texts vs

/-- The texts of the members of an object. -/
def memberTexts : List (String × Json) → List String
  | [] => []
  | (k, v) :: ms => (quote k ++ ":" ++ text v) :: memberTexts ms

end

end Json

end FilterQuery

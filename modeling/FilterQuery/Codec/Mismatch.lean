import FilterQuery.Calendar.Reader
import FilterQuery.Json.Printer
import FilterQuery.Text.Quotation

/-!
# Why a document does not decode

Descriptors have an encoded form as JSON. A value that is not the encoded form
of what was asked for is refused with a cause, which names what was found and
what was wanted.
-/

namespace FilterQuery

/-- What stands where something else was wanted. -/
inductive Found
  | value (v : Json)
  /-- The name of an alternative, without contents. -/
  | bareName

/-- The words for what was found. -/
def Found.words : Found → String
  | .value .null => "null"
  | .value (.bool b) => "boolean `" ++ (if b then "true" else "false") ++ "`"
  | .value (.number (.int n _)) => "integer `" ++ toString n ++ "`"
  | .value (.number (.double d h)) => "floating point `" ++ (Number.double d h).text ++ "`"
  | .value (.string s) => "string " ++ Quoted.quote s
  | .value (.array _) => "sequence"
  | .value (.object _) => "map"
  | .bareName => "unit variant"

/-- What was wanted. -/
inductive Wanted
  | string
  | boolean
  | sequence
  | unit
  | size
  | u32
  | i64
  | double
  | date
  | timestamp
  /-- A record, by its name. -/
  | record (name : String)
  /-- A pair. -/
  | pair
  /-- Alternatives, by name or as an object with one member. -/
  | alternatives
  | singleMember
  | newtypeContents
  | tupleContents
  | tupleOf (name : String)
deriving DecidableEq, Repr

/-- The words for what was wanted. -/
def Wanted.words : Wanted → String
  | string => "a string"
  | boolean => "a boolean"
  | sequence => "a sequence"
  | unit => "unit"
  | size => "usize"
  | u32 => "u32"
  | i64 => "i64"
  | double => "f64"
  | date => "a formatted date string"
  | timestamp => "an RFC 3339 formatted date and time string"
  | record name => "struct " ++ name
  | pair => "a tuple of size 2"
  | alternatives => "string or map"
  | singleMember => "map with a single key"
  | newtypeContents => "newtype variant"
  | tupleContents => "tuple variant"
  | tupleOf name => "tuple variant " ++ name

/-- The length that an array should have had. -/
inductive WantedLength
  | elements (of : Wanted) (count : Nat)
  | pair
  /-- Every element was used up, and more follow. -/
  | fewer
deriving DecidableEq, Repr

/-- The words for a wanted length. -/
def WantedLength.words : WantedLength → String
  | elements of count =>
      of.words ++ " with " ++ toString count ++ (if count = 1 then " element" else " elements")
  | pair => Wanted.pair.words
  | fewer => "fewer elements in array"

/-- Why a value is not the encoded form of what was asked for. -/
inductive Mismatch
  | missingField (name : String)
  | unknownVariant (name : String) (known : List String)
  | invalidType (found : Found) (wanted : Wanted)
  | invalidValue (found : Found) (wanted : Wanted)
  | invalidLength (length : Nat) (wanted : WantedLength)
  | calendar (fault : Calendar.Fault)

namespace Mismatch

/-- A name between backquotes. -/
def backquoted (s : String) : String := "`" ++ s ++ "`"

/-- The alternatives to an unknown name. -/
def alternatives : List String → String
  | [a] => backquoted a
  | [a, b] => backquoted a ++ " or " ++ backquoted b
  | names => "one of " ++ ", ".intercalate (names.map backquoted)

/-- The text of a cause. -/
def message : Mismatch → String
  | missingField name => "missing field " ++ backquoted name
  | unknownVariant name known =>
      "unknown variant " ++ backquoted name ++ ", expected " ++ alternatives known
  | invalidType found wanted =>
      "invalid type: " ++ found.words ++ ", expected " ++ wanted.words
  | invalidValue found wanted =>
      "invalid value: " ++ found.words ++ ", expected " ++ wanted.words
  | invalidLength length wanted =>
      "invalid length " ++ toString length ++ ", expected " ++ wanted.words
  | calendar fault => fault.message

end Mismatch

/-- What decoding gives: a value, or the cause why there is none. -/
abbrev Decoded (α : Type) := Except Mismatch α

end FilterQuery

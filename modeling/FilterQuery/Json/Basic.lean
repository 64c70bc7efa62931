import FilterQuery.Number.Double
import FilterQuery.Number.Whole

/-!
# JSON values

A number is an integer in the range of 64-bit words, signed or not, or a finite
double. An object is a list of members in the order in which they were written.
`Members.insert` keeps the keys of an object distinct: a key that is there
already keeps its place and takes the new value.
-/

namespace FilterQuery

/-- A JSON number. -/
inductive Number
  | int (n : Int) (inRange : FitsWord n)
  | double (d : Double) (isFinite : d.isFinite = true)
deriving DecidableEq

namespace Number

/-- The integer `n`, if it is in the range of 64-bit words. -/
def ofInt? (n : Int) : Option Number :=
  if h : FitsWord n then some (.int n h) else none

/-- The double `d`, if it is finite. -/
def ofDouble? (d : Double) : Option Number :=
  if h : d.isFinite = true then some (.double d h) else none

/-- The double nearest to a number. -/
def toDouble : Number → Double
  | int n _ => Double.ofInt n
  | double d _ => d

end Number

/-- A JSON value. -/
inductive Json
  | null
  | bool (b : Bool)
  | number (n : Number)
  | string (s : String)
  | array (items : List Json)
  | object (members : List (String × Json))

instance : Inhabited Json := ⟨.null⟩

/-- The members of an object, in order. -/
abbrev Members := List (String × Json)

namespace Members

/-- The value of the first member with the given key. -/
def get? (key : String) : Members → Option Json
  | [] => none
  | (k, v) :: rest => if k = key then some v else get? key rest

/-- Sets a member: in its place if the key is there, else at the end. -/
def insert (key : String) (value : Json) : Members → Members
  | [] => [(key, value)]
  | (k, v) :: rest =>
      if k = key then (k, value) :: rest else (k, v) :: insert key value rest

end Members

namespace Json

/-- The whole number `n`; one out of range is its nearest double. -/
def ofInt (n : Int) : Json :=
  match Number.ofInt? n with
  | some m => .number m
  | none =>
      match Number.ofDouble? (Double.ofInt n) with
      | some m => .number m
      | none => .null

def ofNat (n : Nat) : Json := ofInt n

/-- The double `d`; JSON has no text for a NaN or an infinity, they are null. -/
def ofDouble (d : Double) : Json :=
  match Number.ofDouble? d with
  | some n => .number n
  | none => .null

/-- An optional value; an absent one is null. -/
def ofOption {α : Type} (f : α → Json) : Option α → Json
  | none => .null
  | some a => f a

/-- The member of an object, or nothing when the value is no object. -/
def get? (key : String) : Json → Option Json
  | object ms => Members.get? key ms
  | _ => none

/-- The kind of a value, as messages name it. -/
def kind : Json → String
  | null => "null"
  | bool _ => "boolean"
  | number _ => "number"
  | string _ => "string"
  | array _ => "array"
  | object _ => "object"

end Json

end FilterQuery

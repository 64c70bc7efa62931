import FilterQuery.Value

/-!
# Filters

A filter is a list of entries that must all hold. An entry tests one field, by
its logical key, or joins whole filters, or is a raw fragment. Filters are built
entry by entry; each builder adds one entry at the end.
-/

namespace FilterQuery

/-- How a long list of members is to be split: the size of a batch, and how many
batches may run at once. -/
structure Chunking where
  size : Option UInt64 := none
  parallel : Option UInt64 := none
deriving DecidableEq, Repr

/-- The values of a membership test, and how they are to be split. -/
structure Membership where
  values : List Value
  chunking : Option Chunking := none

/-- One operator applied to a field. -/
inductive FieldOp
  | eq (v : Value)
  /-- Being different from null means having a value. -/
  | ne (v : Value)
  | gt (v : Value)
  | gte (v : Value)
  | lt (v : Value)
  | lte (v : Value)
  | like (pattern : String)
  | startsWith (beginning : String)
  | endsWith (ending : String)
  | isIn (members : Membership)
  | notIn (members : Membership)
  | between (low high : Value)
  /-- Whether the field has a value. -/
  | present (b : Bool)

namespace FieldOp

/-- Whether an operator is a membership test. -/
def isMembership : FieldOp → Bool
  | isIn _ => true
  | notIn _ => true
  | _ => false

/-- Attaches a chunking to a membership test. -/
def chunked (c : Chunking) : FieldOp → FieldOp
  | isIn m => isIn { m with chunking := some c }
  | notIn m => notIn { m with chunking := some c }
  | op => op

end FieldOp

/-- What a field is tested for. -/
inductive FieldTest
  /-- Short for having no value. -/
  | null
  /-- Short for equality; an array is compared as a whole. -/
  | value (v : Value)
  /-- Operators that must all hold. -/
  | ops (ops : List FieldOp)

/-- The test for a bare value. -/
def FieldTest.ofValue : Value → FieldTest
  | .null => .null
  | v => .value v

/-- One entry of a filter. -/
inductive Entry
  | all (filters : List (List Entry))
  | any (filters : List (List Entry))
  | not (filter : List Entry)
  /-- A trusted fragment of the query language. -/
  | raw (fragment : String)
  | field (key : String) (test : FieldTest)

/-- Entries that must all hold. -/
abbrev Filter := List Entry

namespace Filter

def empty : Filter := []

/-- Adds an entry at the end. -/
def push (f : Filter) (e : Entry) : Filter := f ++ [e]

/-- Tests the field `key`. -/
def withField (f : Filter) (key : String) (test : FieldTest) : Filter :=
  f.push (.field key test)

/-- Compares the field `key` with a value. -/
def withValue (f : Filter) (key : String) (v : Value) : Filter :=
  f.withField key (.ofValue v)

def withNull (f : Filter) (key : String) : Filter :=
  f.withField key .null

def withNotNull (f : Filter) (key : String) : Filter :=
  f.withField key (.ops [.ne .null])

def withAll (f : Filter) (filters : List Filter) : Filter := f.push (.all filters)

def withAny (f : Filter) (filters : List Filter) : Filter := f.push (.any filters)

def withNot (f : Filter) (filter : Filter) : Filter := f.push (.not filter)

def withRaw (f : Filter) (fragment : String) : Filter := f.push (.raw fragment)

end Filter

end FilterQuery

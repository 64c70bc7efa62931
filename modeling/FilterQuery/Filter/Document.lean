import FilterQuery.Codec.Clause

/-!
# Filters as JSON documents

A filter document is an object. Its members are tests of fields, by their keys,
and combinators, whose names begin with a dollar sign. A test is null, a literal,
or an object of operators. Under the policy `ignore` a part that cannot be read is
left out; under `reject` it fails the whole document.
-/

namespace FilterQuery

/-- What to do with a part that is not known or cannot be read. -/
inductive Policy
  | reject
  | ignore
deriving DecidableEq, Repr

/-- Why a document is no filter. -/
inductive FilterFault
  | notAnObject (got : Json)
  | rawNotText
  | unknownCombinator (name : String)
  | combinatorNotArray (name : String)
  | listNotArray (field op : String)
  | betweenNotPair (field : String)
  | existsNotBoolean (field : String)
  | invalidChunk (field : String) (cause : Mismatch)
  | chunkWithoutMembership (field : String)
  | unknownOperator (field op : String)
  | objectAsValue

/-- The text of a fault. -/
def FilterFault.message : FilterFault → String
  | notAnObject got => "filter must be an object, got " ++ got.text
  | rawNotText => "$raw expects a string"
  | unknownCombinator name => "unknown combinator '" ++ name ++ "'"
  | combinatorNotArray name => name ++ " expects an array of filters"
  | listNotArray field op => field ++ ": " ++ op ++ " expects an array"
  | betweenNotPair field => field ++ ": $between expects a two-element array"
  | existsNotBoolean field => field ++ ": $exists expects a boolean"
  | invalidChunk field cause => field ++ ": invalid $chunk: " ++ cause.message
  | chunkWithoutMembership field => field ++ ": $chunk requires $in or $nin"
  | unknownOperator field op => field ++ ": unknown operator '" ++ op ++ "'"
  | objectAsValue => "objects are not allowed in value position"

/-- Leaves a faulty part out, or fails, as the policy says. -/
def Policy.keep {α : Type} (policy : Policy) :
    Except FilterFault α → Except FilterFault (Option α)
  | .ok a => .ok (some a)
  | .error e =>
      match policy with
      | .ignore => .ok none
      | .reject => .error e

/-! ## Literals -/

/-- A number as a value: an integer where 64 bits hold it with its sign, else the
nearest double. -/
def Value.ofNumber : Number → Value
  | .int n _ => if FitsSigned n then .int (Int64.ofInt n) else .double (Double.ofInt n)
  | .double d _ => .double d

mutual

/-- A JSON value as a literal. A text stays a text, whatever it looks like. -/
def Value.ofJson : Json → Except FilterFault Value
  | .null => .ok .null
  | .bool b => .ok (.bool b)
  | .number n => .ok (.ofNumber n)
  | .string s => .ok (.text s)
  | .array items => (Value.ofItems items).map .array
  | .object _ => .error .objectAsValue

def Value.ofItems : List Json → Except FilterFault (List Value)
  | [] => .ok []
  | v :: vs => do
      let v ← Value.ofJson v
      let vs ← Value.ofItems vs
      return v :: vs

end

/-! ## Operators -/

namespace FieldOp

/-- The values of a membership test. -/
def membersOf (field op : String) : Json → Except FilterFault Membership
  | .array items => (Value.ofItems items).map fun vs => { values := vs }
  | _ => .error (.listNotArray field op)

/-- The operator named `op` on the field `field`. -/
def ofMember (field op : String) (v : Json) : Except FilterFault FieldOp :=
  match op with
  | "$eq" => (Value.ofJson v).map .eq
  | "$ne" => (Value.ofJson v).map .ne
  | "$gt" => (Value.ofJson v).map .gt
  | "$gte" => (Value.ofJson v).map .gte
  | "$lt" => (Value.ofJson v).map .lt
  | "$lte" => (Value.ofJson v).map .lte
  | "$like" => (Value.ofJson v).map fun p => .like p.plain
  | "$startsWith" => (Value.ofJson v).map fun p => .startsWith p.plain
  | "$endsWith" => (Value.ofJson v).map fun p => .endsWith p.plain
  | "$in" => (membersOf field op v).map .isIn
  | "$nin" => (membersOf field op v).map .notIn
  | "$exists" =>
      match v with
      | .bool b => .ok (.present b)
      | _ => .error (.existsNotBoolean field)
  | op => .error (.unknownOperator field op)

end FieldOp

/-- The operators that have been read, and the chunking asked for so far. -/
structure OpsRead where
  ops : List FieldOp := []
  chunking : Option Chunking := none

namespace OpsRead

/-- Adds an operator, if there is one. -/
def push (r : OpsRead) : Option FieldOp → OpsRead
  | none => r
  | some op => { r with ops := r.ops ++ [op] }

/-- Reads one member of an operator object. Two bounds are read at once: a bound
that is no literal fails the whole object, whatever the policy. -/
def step (policy : Policy) (field : String) (r : OpsRead) (op : String) (v : Json) :
    Except FilterFault OpsRead :=
  if op = "$chunk" then do
    let c ← policy.keep ((Chunking.decode v).mapError (.invalidChunk field))
    return { r with chunking := c }
  else if op = "$between" then
    match v with
    | .array [low, high] => do
        let low ← Value.ofJson low
        let high ← Value.ofJson high
        return r.push (some (.between low high))
    | _ => do
        let op ← policy.keep (.error (.betweenNotPair field))
        return r.push op
  else do
    let op ← policy.keep (FieldOp.ofMember field op v)
    return r.push op

/-- Reads the members of an operator object in their order. -/
def steps (policy : Policy) (field : String) : OpsRead → Members → Except FilterFault OpsRead
  | r, [] => .ok r
  | r, (op, v) :: ms => do
      let r ← step policy field r op v
      steps policy field r ms

/-- The operators, with the chunking attached to every membership test. There
must be one to attach it to. -/
def finish (policy : Policy) (field : String) (r : OpsRead) :
    Except FilterFault (List FieldOp) :=
  match r.chunking with
  | none => .ok r.ops
  | some c =>
      if r.ops.any FieldOp.isMembership then .ok (r.ops.map (FieldOp.chunked c))
      else do
        let _ ← policy.keep (α := Unit) (.error (.chunkWithoutMembership field))
        return r.ops

end OpsRead

/-- The operators of an operator object. -/
def FieldOp.ofMembers (policy : Policy) (field : String) (ms : Members) :
    Except FilterFault (List FieldOp) := do
  let r ← OpsRead.steps policy field {} ms
  r.finish policy field

/-- The test of a field. -/
def FieldTest.ofJson (policy : Policy) (field : String) : Json → Except FilterFault FieldTest
  | .null => .ok .null
  | .object ms => (FieldOp.ofMembers policy field ms).map .ops
  | v => (Value.ofJson v).map .value

/-! ## Filters -/

/-- Whether a key is reserved for combinators. -/
def isReserved (key : String) : Bool :=
  match key.toList with
  | '$' :: _ => true
  | _ => false

/-- An entry that joins no filters: a raw fragment or the test of a field. -/
def Entry.ofLeaf (policy : Policy) (key : String) (v : Json) : Except FilterFault Entry :=
  if key = "$raw" then
    match v with
    | .string fragment => .ok (.raw fragment)
    | _ => .error .rawNotText
  else if isReserved key then .error (.unknownCombinator key)
  else (FieldTest.ofJson policy key v).map (.field key)

mutual

/-- The filter that a document describes. -/
def Filter.ofJson (policy : Policy) : Json → Except FilterFault Filter
  | .null => .ok []
  | .object ms => Filter.ofMembers policy ms
  | v => .error (.notAnObject v)
termination_by structural v => v

/-- The entries of the members of a document. -/
def Filter.ofMembers (policy : Policy) : List (String × Json) → Except FilterFault Filter
  | [] => .ok []
  | (key, v) :: ms => do
      let entry ← policy.keep (
        if key = "$and" then
          match v with
          | .array items => (Filter.ofItems policy items).map .all
          | _ => .error (.combinatorNotArray key)
        else if key = "$or" then
          match v with
          | .array items => (Filter.ofItems policy items).map .any
          | _ => .error (.combinatorNotArray key)
        else if key = "$not" then (Filter.ofJson policy v).map .not
        else Entry.ofLeaf policy key v)
      let rest ← Filter.ofMembers policy ms
      return entry.toList ++ rest
termination_by structural ms => ms

/-- The filters that a combinator joins. -/
def Filter.ofItems (policy : Policy) : List Json → Except FilterFault (List Filter)
  | [] => .ok []
  | v :: vs => do
      let f ← policy.keep (Filter.ofJson policy v)
      let rest ← Filter.ofItems policy vs
      return f.toList ++ rest
termination_by structural vs => vs

end

end FilterQuery

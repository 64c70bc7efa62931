import FilterQuery.Clause.Basic
import FilterQuery.Codec.Form
import FilterQuery.Filter.Basic

/-!
# The encoded form of values, conditions, clauses and chunkings

Values, operands and clauses are alternatives with a name; a condition is a
record, and a chunking a record of two optional counts, which filter documents
hold under their chunk operator. `encode` writes the form, `decode` reads it.
-/

namespace FilterQuery

open Codec

/-! ## Values -/

namespace Value

/-- The names of the alternatives. -/
def alternatives : List String :=
  ["Null", "Bool", "Int", "Float", "String", "Date", "DateTime", "Array"]

mutual

def encode : Value → Json
  | .null => .string "Null"
  | .bool b => .object [("Bool", .bool b)]
  | .int n => .object [("Int", .ofInt n.toInt)]
  | .double d => .object [("Float", .ofDouble d)]
  | .text s => .object [("String", .string s)]
  | .date d => .object [("Date", .string d.text)]
  | .timestamp t => .object [("DateTime", .string t.exactText)]
  | .array items => .object [("Array", .array (encodeAll items))]

def encodeAll : List Value → List Json
  | [] => []
  | v :: vs => encode v :: encodeAll vs

end

/-- A name without contents: only `Null` has none. -/
def decodeName (name : String) : Decoded Value :=
  if name = "Null" then .ok .null
  else do
    knownName alternatives name
    throw (.invalidType .bareName .newtypeContents)

/-- An alternative whose contents are no values themselves. -/
def decodeScalar (name : String) (body : Json) : Decoded Value :=
  if name = "Null" then (noContents .json (some body)).map fun _ => .null
  else if name = "Bool" then (asBool body).map .bool
  else if name = "Int" then (asI64 body).map .int
  else if name = "Float" then (asDouble body).map .double
  else if name = "String" then (asText body).map .text
  else if name = "Date" then (asDate body).map .date
  else if name = "DateTime" then (asTimestamp body).map .timestamp
  else .error (.unknownVariant name alternatives)

mutual

def decode : Json → Decoded Value
  | .object [(name, body)] =>
      if name = "Array" then
        match body with
        | .array items => (decodeAll items).map .array
        | other => wrongType other .sequence
      else decodeScalar name body
  | .string name => decodeName name
  | .object ms => .error (.invalidValue (.value (.object ms)) .singleMember)
  | v => wrongType v .alternatives
termination_by structural v => v

def decodeAll : List Json → Decoded (List Value)
  | [] => .ok []
  | v :: vs => do
      let v ← decode v
      let vs ← decodeAll vs
      return v :: vs
termination_by structural vs => vs

end

end Value

/-! ## Operators, operands and conditions -/

namespace Operator

/-- The encoded names of the operators. -/
def encodedNames : List (String × Operator) :=
  [("Eq", eq), ("Ne", ne), ("Gt", gt), ("Gte", gte), ("Lt", lt), ("Lte", lte), ("Like", like),
    ("StartsWith", startsWith), ("EndsWith", endsWith), ("In", isIn), ("NotIn", notIn),
    ("Between", between), ("IsNull", isNull), ("IsNotNull", isNotNull)]

/-- The encoded name of an operator. -/
def encodedName : Operator → String
  | eq => "Eq"
  | ne => "Ne"
  | gt => "Gt"
  | gte => "Gte"
  | lt => "Lt"
  | lte => "Lte"
  | like => "Like"
  | startsWith => "StartsWith"
  | endsWith => "EndsWith"
  | isIn => "In"
  | notIn => "NotIn"
  | between => "Between"
  | isNull => "IsNull"
  | isNotNull => "IsNotNull"

def encode (op : Operator) : Json := .string op.encodedName

def decode (v : Json) : Decoded Operator := oneOf .json encodedNames v

end Operator

namespace Operand

/-- The names of the alternatives. -/
def alternatives : List String := ["None", "Value", "List", "Range"]

def encode : Operand → Json
  | .none => .string "None"
  | .value v => .object [("Value", v.encode)]
  | .list vs => .object [("List", .array (Value.encodeAll vs))]
  | .range low high => .object [("Range", .array [low.encode, high.encode])]

/-- The two bounds of a range; an empty array counts as no contents at all. -/
def decodeRange : Json → Decoded Operand
  | .array [] => .error (.invalidType (.value .null) (.tupleOf "Operand::Range"))
  | .array [low] => do
      let _ ← Value.decode low
      throw (.invalidLength 1 (.elements (.tupleOf "Operand::Range") 2))
  | .array (low :: high :: rest) => do
      let low ← Value.decode low
      let high ← Value.decode high
      if rest.isEmpty then return .range low high
      else throw (.invalidLength (rest.length + 2) .fewer)
  | v => wrongType v .tupleContents

def decode (v : Json) : Decoded Operand := do
  let (name, body) ← alternative alternatives v
  match name, body with
  | "None", body => (noContents .json body).map fun _ => .none
  | "Value", some body => (Value.decode body).map .value
  | "List", some (.array items) => (Value.decodeAll items).map .list
  | "List", some body => wrongType body .sequence
  | "Range", some body => decodeRange body
  | "Range", Option.none => throw (.invalidType .bareName .tupleContents)
  | _, _ => throw (.invalidType .bareName .newtypeContents)

end Operand

namespace Condition

def encode (c : Condition) : Json :=
  .object [("field_key", .string c.key), ("field_path", .string c.path),
    ("op", c.op.encode), ("operand", c.operand.encode)]

/-- The fields of a condition that have been read. -/
structure Parts where
  key : Option String := none
  path : Option String := none
  op : Option Operator := none
  operand : Option Operand := none

/-- The record of a condition. -/
def form : RecordForm Parts where
  name := "Condition"
  fields :=
    [⟨"field_key", fun v p => (asText v).map fun x => { p with key := some x }, false⟩,
      ⟨"field_path", fun v p => (asText v).map fun x => { p with path := some x }, false⟩,
      ⟨"op", fun v p => (Operator.decode v).map fun x => { p with op := some x }, false⟩,
      ⟨"operand", fun v p => (Operand.decode v).map fun x => { p with operand := some x }, false⟩]
  blank := {}

def decode (v : Json) : Decoded Condition := do
  let p ← form.read .json v
  let key ← demand "field_key" p.key
  let path ← demand "field_path" p.path
  let op ← demand "op" p.op
  let operand ← demand "operand" p.operand
  return ⟨key, path, op, operand⟩

end Condition

/-! ## Clauses -/

namespace Clause

/-- The names of the alternatives. -/
def alternatives : List String := ["And", "Or", "Not", "Raw", "Cond"]

mutual

def encode : Clause → Json
  | .all nodes => .object [("And", .array (encodeAll nodes))]
  | .any nodes => .object [("Or", .array (encodeAll nodes))]
  | .not node => .object [("Not", encode node)]
  | .raw fragment => .object [("Raw", .string fragment)]
  | .test c => .object [("Cond", c.encode)]

def encodeAll : List Clause → List Json
  | [] => []
  | c :: cs => encode c :: encodeAll cs

end

/-- An alternative whose contents are no clauses themselves. -/
def decodeLeaf (name : String) (body : Json) : Decoded Clause :=
  if name = "Raw" then (asText body).map .raw
  else if name = "Cond" then (Condition.decode body).map .test
  else .error (.unknownVariant name alternatives)

mutual

def decode : Json → Decoded Clause
  | .object [(name, body)] =>
      if name = "And" then
        match body with
        | .array items => (decodeAll items).map .all
        | other => wrongType other .sequence
      else if name = "Or" then
        match body with
        | .array items => (decodeAll items).map .any
        | other => wrongType other .sequence
      else if name = "Not" then (decode body).map .not
      else decodeLeaf name body
  | .string name => do
      knownName alternatives name
      throw (.invalidType .bareName .newtypeContents)
  | .object ms => .error (.invalidValue (.value (.object ms)) .singleMember)
  | v => wrongType v .alternatives
termination_by structural v => v

def decodeAll : List Json → Decoded (List Clause)
  | [] => .ok []
  | v :: vs => do
      let v ← decode v
      let vs ← decodeAll vs
      return v :: vs
termination_by structural vs => vs

end

end Clause

/-! ## Chunkings -/

namespace Chunking

/-- An optional count. -/
def encodeCount (n : Option UInt64) : Json :=
  .ofOption (fun n : UInt64 => .ofNat n.toNat) n

def encode (c : Chunking) : Json :=
  .object [("size", encodeCount c.size), ("parallel", encodeCount c.parallel)]

/-- The record of a chunking. -/
def form : RecordForm Chunking where
  name := "ChunkConfig"
  fields :=
    [⟨"size", fun v c => (asOptional asSize v).map fun x => { c with size := x }, false⟩,
      ⟨"parallel", fun v c => (asOptional asSize v).map fun x => { c with parallel := x }, false⟩]
  blank := {}

def decode (v : Json) : Decoded Chunking := form.read .json v

end Chunking

end FilterQuery

import FilterQuery.Codec.Mismatch

/-!
# Encoded forms

The forms that encoded descriptors are built from: texts, numbers, optional
values, sequences, pairs, alternatives with a name, and records. A record is an
object whose members are its fields, in any order and among others, or an array
of its fields in order.
-/

namespace FilterQuery.Codec

/-- Refuses a value of the wrong kind. -/
def wrongType {α : Type} (v : Json) (wanted : Wanted) : Decoded α :=
  .error (.invalidType (.value v) wanted)

/-- The notation that a document was written in. It decides two details: what
stands for no contents, and whether an array may hold more elements than the
record that is read from it has fields. -/
inductive Source
  | json
  | toml
deriving DecidableEq, Repr

/-! ## Texts and numbers -/

def asText : Json → Decoded String
  | .string s => .ok s
  | v => wrongType v .string

def asBool : Json → Decoded Bool
  | .bool b => .ok b
  | v => wrongType v .boolean

/-- An integer that fits. An integer that does not is a wrong value, and a number
that is no integer a wrong type. -/
def asInteger (fits : Int → Bool) (wanted : Wanted) : Json → Decoded Int
  | .number (.int n h) =>
      if fits n then .ok n
      else .error (.invalidValue (.value (.number (.int n h))) wanted)
  | v => wrongType v wanted

def asI64 (v : Json) : Decoded Int64 :=
  (asInteger (fun n => decide (FitsSigned n)) .i64 v).map Int64.ofInt

def asU32 (v : Json) : Decoded UInt32 :=
  (asInteger (fun n => decide (FitsUnsigned32 n)) .u32 v).map fun n => UInt32.ofNat n.toNat

def asSize (v : Json) : Decoded UInt64 :=
  (asInteger (fun n => decide (FitsUnsigned n)) .size v).map fun n => UInt64.ofNat n.toNat

def asDouble : Json → Decoded Double
  | .number n => .ok n.toDouble
  | v => wrongType v .double

/-- A date, in its loose form. -/
def asDate : Json → Decoded Date
  | .string s => (Calendar.readDate .allowed s).mapError .calendar
  | v => wrongType v .date

/-- A point in time, in its loose form. -/
def asTimestamp : Json → Decoded Timestamp
  | .string s => (Calendar.readTime Calendar.looseTime s).mapError .calendar
  | v => wrongType v .timestamp

/-! ## Optional values, sequences and pairs -/

/-- A value, or nothing for null. -/
def asOptional {α : Type} (read : Json → Decoded α) : Json → Decoded (Option α)
  | .null => .ok none
  | v => (read v).map some

/-- The elements of an array, each read in turn. -/
def asSequence {α : Type} (read : Json → Decoded α) : Json → Decoded (List α)
  | .array items => items.mapM read
  | v => wrongType v .sequence

/-- An array of exactly two elements. -/
def asPair {α β : Type} (first : Json → Decoded α) (second : Json → Decoded β) :
    Json → Decoded (α × β)
  | .array items =>
      match items with
      | [] => .error (.invalidLength 0 .pair)
      | [a] => do
          let _ ← first a
          throw (.invalidLength 1 .pair)
      | a :: b :: rest => do
          let a ← first a
          let b ← second b
          if rest.isEmpty then return (a, b)
          else throw (.invalidLength (rest.length + 2) .fewer)
  | v => wrongType v .pair

/-! ## Alternatives -/

/-- Refuses a name that is not among the known ones. -/
def knownName (known : List String) (name : String) : Decoded Unit :=
  if name ∈ known then .ok () else .error (.unknownVariant name known)

/-- The name of an alternative and its contents: a text has none, an object must
have exactly one member. -/
def alternative (known : List String) : Json → Decoded (String × Option Json)
  | .string name => do
      knownName known name
      return (name, none)
  | .object [(name, body)] => do
      knownName known name
      return (name, some body)
  | .object ms => .error (.invalidValue (.value (.object ms)) .singleMember)
  | v => wrongType v .alternatives

/-- The contents of an alternative that has none: nothing, or null in JSON, or
something empty in TOML. -/
def noContents : Source → Option Json → Decoded Unit
  | _, none => .ok ()
  | .json, some .null => .ok ()
  | .toml, some (.array []) => .ok ()
  | .toml, some (.object []) => .ok ()
  | _, some v => wrongType v .unit

/-- One of some names that have no contents. -/
def oneOf {α : Type} (source : Source) (table : List (String × α)) (v : Json) :
    Decoded α := do
  let known := table.map Prod.fst
  let (name, body) ← alternative known v
  noContents source body
  match table.lookup name with
  | some a => return a
  | none => throw (.unknownVariant name known)

/-! ## Records -/

/-- One field of a record: how its value is put in, and whether a record given
as an array may end before it. -/
structure FieldForm (α : Type) where
  name : String
  put : Json → α → Decoded α
  mayEnd : Bool

/-- A record under construction: its name, its fields, and what it is before any
field is put in. -/
structure RecordForm (α : Type) where
  name : String
  fields : List (FieldForm α)
  blank : α

namespace RecordForm

variable {α : Type}

/-- Puts in the members of an object in their order; the names that are no field
are passed over. -/
def ofMembers (r : RecordForm α) (ms : Members) : Decoded α :=
  ms.foldlM
    (fun acc m =>
      match r.fields.find? fun f => f.name = m.1 with
      | some f => f.put m.2 acc
      | none => .ok acc)
    r.blank

/-- Puts in the elements of an array, field by field; `index` counts the fields
before. -/
def ofItems (r : RecordForm α) (source : Source) :
    Nat → List (FieldForm α) → List Json → α → Decoded α
  | index, [], rest, acc =>
      if rest.isEmpty ∨ source = .toml then .ok acc
      else .error (.invalidLength (index + rest.length) .fewer)
  | index, f :: fs, [], acc =>
      if f.mayEnd then r.ofItems source (index + 1) fs [] acc
      else .error (.invalidLength index (.elements (.record r.name) r.fields.length))
  | index, f :: fs, v :: vs, acc => do
      let acc ← f.put v acc
      r.ofItems source (index + 1) fs vs acc

/-- A record as an object or as an array. -/
def read (r : RecordForm α) (source : Source) : Json → Decoded α
  | .object ms => r.ofMembers ms
  | .array items => r.ofItems source 0 r.fields items r.blank
  | v => wrongType v (.record r.name)

end RecordForm

/-- The value of a field that must be there. -/
def demand {α : Type} (name : String) : Option α → Decoded α
  | some a => .ok a
  | none => .error (.missingField name)

end FilterQuery.Codec

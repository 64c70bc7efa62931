/-!
# Schemas

A schema says which fields a record has, of which type each is, and whether it
may be absent or null. Its fields are in the order in which they were declared;
declaring a field again replaces its entry in its place.
-/

namespace FilterQuery

/-- The type of a field. -/
inductive FieldType
  | string
  | integer
  | number
  | boolean
  | date
  | timestamp
  /-- Anything. -/
  | json
deriving DecidableEq, Repr

/-- The name of a type. -/
def FieldType.name : FieldType → String
  | string => "string"
  | integer => "integer"
  | number => "number"
  | boolean => "boolean"
  | date => "date"
  | timestamp => "datetime"
  | json => "json"

/-- The types by their names. -/
def FieldType.named : List (String × FieldType) :=
  [string, integer, number, boolean, date, timestamp, json].map fun t => (t.name, t)

/-- What a schema says about one field. -/
structure FieldSchema where
  type : FieldType
  required : Bool := true
  nullable : Bool := false
deriving DecidableEq, Repr

/-- The declared fields, in order. -/
structure Schema where
  fields : List (String × FieldSchema) := []
deriving DecidableEq, Repr

namespace Schema

def empty : Schema := {}

/-- Sets the entry of a key: in its place if it is there, else at the end. -/
@[simp, grind =] def setEntry (key : String) (s : FieldSchema) :
    List (String × FieldSchema) → List (String × FieldSchema)
  | [] => [(key, s)]
  | (k, old) :: rest => if k = key then (k, s) :: rest else (k, old) :: setEntry key s rest

/-- Declares a field. -/
def declare (schema : Schema) (key : String) (s : FieldSchema) : Schema :=
  ⟨setEntry key s schema.fields⟩

/-- The entry of a key. -/
def get? (schema : Schema) (key : String) : Option FieldSchema :=
  schema.fields.lookup key

def size (schema : Schema) : Nat := schema.fields.length

def isEmpty (schema : Schema) : Bool := schema.fields.isEmpty

/-- The schema of the declared fields among `keys`. -/
def project (schema : Schema) (keys : List String) : Schema :=
  ⟨schema.fields.filter fun f => f.1 ∈ keys⟩

end Schema

end FilterQuery

import FilterQuery.Calendar.Reader
import FilterQuery.Json.Printer
import FilterQuery.Schema.Basic

/-!
# Validation of records

A record is checked field by field against a schema. A value that fits is kept,
or brought to the one form of its type: a whole double becomes an integer, a date
and a point in time are written anew. All issues of a record are collected. Keys
that the schema does not declare are left alone.
-/

namespace FilterQuery

/-- A record is the members of an object. -/
abbrev Record := Members

/-- What is wrong with a field. -/
inductive Reason
  | required
  | mustNotBeNull
  | wrongKind (wanted : String) (got : Json)
  | notWhole (got : Number)
  | invalidDate (text : String)
  | invalidTimestamp (text : String)

/-- The words for a reason. -/
def Reason.message : Reason → String
  | required => "required"
  | mustNotBeNull => "must not be null"
  | wrongKind wanted got => "expected " ++ wanted ++ ", got " ++ got.kind
  | notWhole got => "expected integer, got " ++ got.text
  | invalidDate text => "invalid date '" ++ text ++ "'"
  | invalidTimestamp text => "invalid datetime '" ++ text ++ "'"

/-- A field of a record that does not fit its schema. -/
structure Issue where
  field : String
  reason : Reason

/-- The issues of one record, with its position among the records. -/
structure Invalid where
  record : Nat
  issues : List Issue

/-- The text of an invalid record. -/
def Invalid.message (e : Invalid) : String :=
  "Record " ++ toString e.record ++ " failed validation:" ++
    ";".intercalate (e.issues.map fun i => " " ++ i.field ++ ": " ++ i.reason.message)

/-- The integer that a number denotes, if 64 bits hold it. A double must lie
strictly between the two powers `-2 ^ 63` and `2 ^ 63`. -/
def Number.toInteger? : Number → Option Number
  | .int n h => some (.int n h)
  | .double d _ =>
      match d.toInt? with
      | some n => if n.natAbs ≤ 9223372036854775807 then Number.ofInt? n else none
      | none => none

namespace FieldSchema

/-- A value that is not null, in the form of its type. -/
def coerceTyped (s : FieldSchema) (v : Json) : Except Reason Json :=
  match s.type, v with
  | .json, v => .ok v
  | .string, .string t => .ok (.string t)
  | .string, v => .error (.wrongKind "string" v)
  | .boolean, .bool b => .ok (.bool b)
  | .boolean, v => .error (.wrongKind "boolean" v)
  | .number, .number n => .ok (.number n)
  | .number, v => .error (.wrongKind "number" v)
  | .integer, .number n =>
      match n.toInteger? with
      | some m => .ok (.number m)
      | none => .error (.notWhole n)
  | .integer, v => .error (.wrongKind "integer" v)
  | .date, .string t =>
      match Date.read? t with
      | some d => .ok (.string d.text)
      | none => .error (.invalidDate t)
  | .date, v => .error (.wrongKind "date string" v)
  | .timestamp, .string t =>
      match Timestamp.read? t with
      | some p => .ok (.string p.millisText)
      | none => .error (.invalidTimestamp t)
  | .timestamp, v => .error (.wrongKind "datetime string" v)

/-- A value in the form of its type; null only where the field may be null. -/
def coerce (s : FieldSchema) (v : Json) : Except Reason Json :=
  match v with
  | .null => if s.nullable ∨ s.type = .json then .ok .null else .error .mustNotBeNull
  | v => s.coerceTyped v

end FieldSchema

namespace Schema

/-- A record under validation, and the issues found so far. -/
structure Progress where
  record : Record
  issues : List Issue := []

/-- Checks one declared field. -/
def check (p : Progress) (field : String × FieldSchema) : Progress :=
  match p.record.get? field.1 with
  | none =>
      if field.2.required then { p with issues := p.issues ++ [⟨field.1, .required⟩] } else p
  | some v =>
      match field.2.coerce v with
      | .ok w => { p with record := p.record.insert field.1 w }
      | .error reason => { p with issues := p.issues ++ [⟨field.1, reason⟩] }

/-- Checks a record, the one at position `index`. -/
def validate (schema : Schema) (record : Record) (index : Nat) : Except Invalid Record :=
  let p := schema.fields.foldl check { record := record }
  if p.issues.isEmpty then .ok p.record else .error ⟨index, p.issues⟩

end Schema

end FilterQuery

import FilterQuery.Model.Basic
import FilterQuery.Schema.Validation
import FilterQuery.Text.Basic

/-!
# Rows of a provider

A row is mapped to a record by looking up the path of each key. A path leads
through nested objects, one segment between dots at a time. Providers may drop
the marker `__r` at the end of the name of a relationship, so a segment that is
missing is tried again without it.
-/

namespace FilterQuery

/-- The segments of a path. -/
def segments (path : String) : List String :=
  partsAt '.' path

/-- A name without the marker of a relationship at its end, if it has one. -/
def withoutMarker? (name : String) : Option String :=
  match name.toList.reverse with
  | 'r' :: '_' :: '_' :: rest => some (String.ofList rest.reverse)
  | _ => none

/-- The value under a segment: under its exact name if that is there, else under
the name without the marker. -/
def Members.resolve (ms : Members) (segment : String) : Option Json :=
  match ms.get? segment with
  | some v => some v
  | none => (withoutMarker? segment).bind fun name => ms.get? name

namespace Json

/-- Follows segments through nested objects. -/
@[simp] def follow : List String → Json → Option Json
  | [], v => some v
  | s :: rest, .object ms => (Members.resolve ms s).bind (follow rest)
  | _ :: _, _ => none

/-- The value at a path. -/
def atPath (row : Json) (path : String) : Option Json :=
  follow (segments path) row

end Json

/-- The record of a row for some keys. Keys that are not declared and paths that
lead nowhere are left out. -/
def Model.mapRow (m : Model) (keys : List String) (row : Json) : Record :=
  keys.foldl
    (fun record key =>
      match (m.pathFor? key).bind row.atPath with
      | some v => record.insert key v
      | none => record)
    []

end FilterQuery

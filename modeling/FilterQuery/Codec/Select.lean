import FilterQuery.Codec.Form
import FilterQuery.Exchange.Transport
import FilterQuery.Select.Basic

/-!
# The encoded form of the parts of a query

Selections, orders, pages and the labels of requests as JSON.
-/

namespace FilterQuery

open Codec

namespace Selection

def encode (s : Selection) : Json :=
  .object [("entries", .array (s.entries.map fun e => .array [.string e.1, .bool e.2]))]

/-- The record of a selection. -/
def form : RecordForm (Option Selection) where
  name := "Selection"
  fields :=
    [⟨"entries", fun v _ => (asSequence (asPair asText asBool) v).map fun es => some ⟨es⟩, false⟩]
  blank := none

def decode (v : Json) : Decoded Selection := do
  let s ← form.read .json v
  demand "entries" s

end Selection

namespace SortDirection

/-- The encoded names of the directions. -/
def encodedNames : List (String × SortDirection) := [("asc", asc), ("desc", desc)]

def encodedName : SortDirection → String
  | asc => "asc"
  | desc => "desc"

def encode (d : SortDirection) : Json := .string d.encodedName

def decode (v : Json) : Decoded SortDirection := oneOf .json encodedNames v

end SortDirection

namespace SortKey

def encode (o : SortKey) : Json :=
  .object [("field", .string o.field), ("direction", o.direction.encode)]

/-- The fields of a sort key that have been read. -/
structure Parts where
  field : Option String := none
  direction : Option SortDirection := none

/-- The record of a sort key. -/
def form : RecordForm Parts where
  name := "OrderBy"
  fields :=
    [⟨"field", fun v p => (asText v).map fun x => { p with field := some x }, false⟩,
      ⟨"direction", fun v p =>
        (SortDirection.decode v).map fun x => { p with direction := some x }, false⟩]
  blank := {}

def decode (v : Json) : Decoded SortKey := do
  let p ← form.read .json v
  let field ← demand "field" p.field
  let direction ← demand "direction" p.direction
  return ⟨field, direction⟩

end SortKey

namespace Pagination

def encode (p : Pagination) : Json :=
  .object [("strategy", .string "cursor"), ("field", .string p.field),
    ("page_size", .ofOption (fun n : UInt32 => .ofNat n.toNat) p.pageSize)]

/-- The fields of a pagination that have been read; there is one strategy. -/
structure Parts where
  strategy : Option Unit := none
  field : Option String := none
  pageSize : Option UInt32 := none

/-- The record of a pagination. -/
def form : RecordForm Parts where
  name := "PaginationConfig"
  fields :=
    [⟨"strategy", fun v p =>
        (oneOf .json [("cursor", ())] v).map fun x => { p with strategy := some x }, false⟩,
      ⟨"field", fun v p => (asText v).map fun x => { p with field := some x }, false⟩,
      ⟨"page_size", fun v p => (asOptional asU32 v).map fun x => { p with pageSize := x }, false⟩]
  blank := {}

def decode (v : Json) : Decoded Pagination := do
  let p ← form.read .json v
  let _ ← demand "strategy" p.strategy
  let field ← demand "field" p.field
  return ⟨field, p.pageSize⟩

end Pagination

namespace Metadata

def encode (m : Metadata) : Json :=
  .object [("request_name", .ofOption .string m.requestName),
    ("user_id", .ofOption .string m.userId),
    ("organization_id", .ofOption .string m.organizationId)]

/-- The record of the labels of a request. -/
def form : RecordForm Metadata where
  name := "TransportMetadata"
  fields :=
    [⟨"request_name", fun v m =>
        (asOptional asText v).map fun x => { m with requestName := x }, false⟩,
      ⟨"user_id", fun v m => (asOptional asText v).map fun x => { m with userId := x }, false⟩,
      ⟨"organization_id", fun v m =>
        (asOptional asText v).map fun x => { m with organizationId := x }, false⟩]
  blank := {}

def decode (v : Json) : Decoded Metadata := form.read .json v

end Metadata

end FilterQuery

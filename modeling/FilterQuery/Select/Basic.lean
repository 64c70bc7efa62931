import FilterQuery.Clause.Basic
import FilterQuery.Model.Basic
import FilterQuery.Text.Basic

/-!
# Select descriptors

The complete description of one read query, before it is written in a query
language: a model, the fields that are asked for, a condition tree, an order, and
limits.
-/

namespace FilterQuery

/-- The fields that are asked for: logical keys, each with a flag that says
whether it is included. -/
structure Selection where
  entries : List (String × Bool) := []
deriving DecidableEq, Repr

namespace Selection

def empty : Selection := {}

/-- The selection that includes exactly `keys`. -/
def ofKeys (keys : List String) : Selection :=
  ⟨keys.map fun k => (k, true)⟩

/-- Sets the flag of the first entry of a key, or adds an entry at the end. -/
@[simp, grind =] def setFlag (key : String) (included : Bool) : List (String × Bool) → List (String × Bool)
  | [] => [(key, included)]
  | (k, old) :: rest =>
      if k = key then (k, included) :: rest else (k, old) :: setFlag key included rest

/-- Sets the flag of a key. -/
def set (s : Selection) (key : String) (included : Bool) : Selection :=
  ⟨setFlag key included s.entries⟩

/-- Whether some entry includes the key. -/
def includes (s : Selection) (key : String) : Bool :=
  s.entries.any fun e => e.1 = key && e.2

/-- The keys that are included, in order. -/
def includedKeys (s : Selection) : List String :=
  (s.entries.filter fun e => e.2).map Prod.fst

/-- All keys, also those that are not included. -/
def keys (s : Selection) : List String :=
  s.entries.map Prod.fst

end Selection

/-- The direction of an order. -/
inductive SortDirection
  | asc
  | desc
deriving DecidableEq, Repr

namespace SortDirection

def keyword : SortDirection → String
  | asc => "ASC"
  | desc => "DESC"

/-- The word `desc`, in any case of ASCII letters, means descending; everything
else means ascending. -/
def ofText (s : String) : SortDirection :=
  if sameLetters s "desc" then desc else asc

end SortDirection

/-- One key of an order, and which way it goes. -/
structure SortKey where
  field : String
  direction : SortDirection
deriving DecidableEq, Repr

/-- An order from pairs of a key and a direction. -/
def SortKey.ofPairs (pairs : List (String × String)) : List SortKey :=
  pairs.map fun p => ⟨p.1, .ofText p.2⟩

/-- The wish for pages, which the executor may follow: pages of a cursor over a
field. -/
structure Pagination where
  field : String
  pageSize : Option UInt32 := none
deriving DecidableEq, Repr

/-- The description of a read query. -/
structure Select where
  model : Model
  /-- Without a selection every field of the model is asked for. -/
  selection : Option Selection := none
  filter : Option Clause := none
  orderBy : List SortKey := []
  limit : Option UInt64 := none
  offset : Option UInt64 := none
  pagination : Option Pagination := none

namespace Select

/-- The keys that are asked for: those that the model declares in its order, then
the others in the order of the selection. -/
def projectedKeys (q : Select) : List String :=
  match q.selection with
  | none => q.model.keys
  | some s =>
      q.model.keys.filter s.includes ++
        s.includedKeys.filter fun k => !q.model.declares k

end Select

end FilterQuery

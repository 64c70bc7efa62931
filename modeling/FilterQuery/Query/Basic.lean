import FilterQuery.Filter.Normalized
import FilterQuery.Select.Basic

/-!
# Queries under construction

A query gathers what is asked for step by step; each setter replaces what was set
before. Building it checks the keys, normalizes the filter and freezes everything
into a descriptor.
-/

namespace FilterQuery

/-- What has been asked for so far. -/
structure Query where
  model : Model
  selection : Option Selection := none
  filter : Option Filter := none
  orderBy : List SortKey := []
  limit : Option UInt64 := none
  offset : Option UInt64 := none
  pagination : Option Pagination := none
  policy : Policy := .reject

namespace Query

/-- Nothing asked for yet. -/
def ofModel (m : Model) : Query := { model := m }

def select (q : Query) (s : Selection) : Query := { q with selection := some s }

/-- Asks for exactly these keys. -/
def selectKeys (q : Query) (keys : List String) : Query := q.select (.ofKeys keys)

def matching (q : Query) (f : Filter) : Query := { q with filter := some f }

def sortBy (q : Query) (os : List SortKey) : Query := { q with orderBy := os }

def take (q : Query) (n : UInt64) : Query := { q with limit := some n }

def skip (q : Query) (n : UInt64) : Query := { q with offset := some n }

def paginate (q : Query) (p : Pagination) : Query := { q with pagination := some p }

/-- Says what keys that the model does not declare do. -/
def onUnknown (q : Query) (policy : Policy) : Query := { q with policy := policy }

/-- The keys outside the filter: those of the selection, whatever their flag, then
those of the order. -/
def namedKeys (q : Query) : List String :=
  (match q.selection with
    | some s => s.keys
    | none => []) ++ q.orderBy.map SortKey.field

/-- Refuses the first named key that the model does not declare. -/
def checkKeys (q : Query) : Except UnknownField Unit :=
  match q.namedKeys.find? fun k => !q.model.declares k with
  | some k => .error ⟨q.model.name, k⟩
  | none => .ok ()

/-- The normalized filter; no filter has no conditions. -/
def normalized (q : Query) : Except UnknownField Normalized :=
  match q.filter with
  | some f => f.normalize q.model q.policy
  | none => .ok {}

/-- The descriptor. It carries the whole lists of membership tests; the chunk
directives are left behind. -/
def build (q : Query) : Except UnknownField Select := do
  if q.policy = .reject then q.checkKeys
  let n ← q.normalized
  return {
    model := q.model, selection := q.selection, filter := n.clause, orderBy := q.orderBy,
    limit := q.limit, offset := q.offset, pagination := q.pagination }

/-- The keys that the records will carry. -/
def resultKeys (q : Query) : List String :=
  match q.selection with
  | some s => s.includedKeys
  | none => q.model.keys

end Query

end FilterQuery

import FilterQuery.Model.Basic
import Std.Data.HashMap

/-!
# Registries of models

Models by name, and the names in the order in which they were first registered. A
name that is registered again keeps its place and takes the new model.
-/

namespace FilterQuery

/-- The registered models by name, and the names in order. -/
structure Registry where
  byName : Std.HashMap String Model := {}
  order : List String := []

namespace Registry

def empty : Registry := {}

/-- Registers a model under its name; a name that is new goes to the end of the order. -/
def register (r : Registry) (m : Model) : Registry where
  byName := r.byName.insert m.name m
  order := if r.byName.contains m.name then r.order else r.order ++ [m.name]

/-- The model registered under a name. -/
def get? (r : Registry) (name : String) : Option Model :=
  r.byName[name]?

/-- The registered models, in order. -/
def models (r : Registry) : List Model :=
  r.order.filterMap r.get?

/-- The names of the registered models, in order. -/
def names (r : Registry) : List String :=
  r.models.map fun m => m.name

def size (r : Registry) : Nat := r.byName.size

def isEmpty (r : Registry) : Bool := r.byName.isEmpty

/-- The model that a relation of `m` leads to. -/
def related? (r : Registry) (m : Model) (relation : String) : Option Model :=
  (m.relation? relation).bind fun rel => r.get? rel.model

end Registry

end FilterQuery

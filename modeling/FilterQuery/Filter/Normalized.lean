import FilterQuery.Clause.Basic
import FilterQuery.Filter.Directive
import FilterQuery.Filter.Document

/-!
# Normalized filters

Normalizing resolves the logical keys of a filter to the paths of a model and
gives a condition tree. Parts without any condition vanish; a filter with one
entry is that entry, and one with several is their conjunction, while an explicit
combinator stays even around a single child. What a key that the model does not
declare does is for the policy to say.
-/

namespace FilterQuery

/-- A key that the model does not declare. -/
structure UnknownField where
  model : String
  field : String
deriving DecidableEq, Repr

/-- A condition tree, if anything is left of the filter, and the chunk directives
beside it. -/
structure Normalized where
  clause : Option Clause := none
  directives : List Directive := []

namespace Clause

/-- No clause, a clause itself, or the conjunction of several. -/
def combine : List Clause → Option Clause
  | [] => none
  | [c] => some c
  | cs => some (.all cs)

/-- An explicit conjunction, unless it is empty. -/
def allOf? : List Clause → Option Clause
  | [] => none
  | cs => some (.all cs)

/-- An explicit disjunction, unless it is empty. -/
def anyOf? : List Clause → Option Clause
  | [] => none
  | cs => some (.any cs)

end Clause

/-- The condition that an operator puts on a field. -/
def FieldOp.condition (key path : String) : FieldOp → Condition
  | .eq v => .compare key path .eq v
  | .ne .null => .isNotNull key path
  | .ne v => .compare key path .ne v
  | .gt v => .compare key path .gt v
  | .gte v => .compare key path .gte v
  | .lt v => .compare key path .lt v
  | .lte v => .compare key path .lte v
  | .like p => .compare key path .like (.text p)
  | .startsWith p => .compare key path .startsWith (.text p)
  | .endsWith p => .compare key path .endsWith (.text p)
  | .isIn m => .membership key path false m.values
  | .notIn m => .membership key path true m.values
  | .between low high => .between key path low high
  | .present true => .isNotNull key path
  | .present false => .isNull key path

/-- The clause of a test, if it tests anything. -/
def FieldTest.clause? (key path : String) : FieldTest → Option Clause
  | .null => some (.test (.isNull key path))
  | .value v => some (.test (.compare key path .eq v))
  | .ops list => Clause.combine (list.map fun op => .test (op.condition key path))

mutual

/-- The clause of an entry, if anything is left of it. -/
def Entry.clause? (m : Model) (policy : Policy) : Entry → Except UnknownField (Option Clause)
  | .all filters => (Filter.clauses m policy filters).map Clause.allOf?
  | .any filters => (Filter.clauses m policy filters).map Clause.anyOf?
  | .not filter =>
      (Filter.entryClauses m policy filter).map fun cs => (Clause.combine cs).map .not
  | .raw fragment => .ok (some (.raw fragment))
  | .field key test =>
      match m.pathFor? key with
      | some path => .ok (test.clause? key path)
      | none =>
          match policy with
          | .reject => .error ⟨m.name, key⟩
          | .ignore => .ok none

/-- The clauses of the entries of a filter. -/
def Filter.entryClauses (m : Model) (policy : Policy) :
    Filter → Except UnknownField (List Clause)
  | [] => .ok []
  | e :: es => do
      let c ← Entry.clause? m policy e
      let cs ← Filter.entryClauses m policy es
      return c.toList ++ cs

/-- The clauses of filters that stand side by side. -/
def Filter.clauses (m : Model) (policy : Policy) :
    List Filter → Except UnknownField (List Clause)
  | [] => .ok []
  | f :: fs => do
      let es ← Filter.entryClauses m policy f
      let cs ← Filter.clauses m policy fs
      return (Clause.combine es).toList ++ cs

end

/-- The condition tree of a filter. -/
def Filter.clause? (m : Model) (policy : Policy) (f : Filter) :
    Except UnknownField (Option Clause) :=
  (Filter.entryClauses m policy f).map Clause.combine

/-- The condition tree and the chunk directives of a filter. -/
def Filter.normalize (m : Model) (policy : Policy) (f : Filter) :
    Except UnknownField Normalized :=
  (f.clause? m policy).map fun c => { clause := c, directives := f.directives m }

end FilterQuery

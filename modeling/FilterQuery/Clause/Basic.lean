import FilterQuery.Condition.Basic

/-!
# Condition trees

A clause joins conditions by `all`, `any` and `not`, and may contain raw
fragments of the query language. It does not depend on a query language
otherwise.
-/

namespace FilterQuery

/-- A tree of conditions. -/
inductive Clause
  | all (nodes : List Clause)
  | any (nodes : List Clause)
  | not (node : Clause)
  /-- A trusted fragment, which is written as it is. -/
  | raw (fragment : String)
  | test (c : Condition)

/-- The two ways to join clauses. -/
inductive Junction
  | conjunction
  | disjunction
deriving DecidableEq, Repr

/-- The word that joins clauses. -/
def Junction.keyword : Junction → String
  | conjunction => "AND"
  | disjunction => "OR"

namespace Clause

/-- How the topmost node joins its children, if it does. -/
def junction? : Clause → Option Junction
  | .all _ => some .conjunction
  | .any _ => some .disjunction
  | _ => none

mutual

/-- The conditions of a clause, from left to right. -/
@[simp] def conditions : Clause → List Condition
  | .all nodes => conditionsAll nodes
  | .any nodes => conditionsAll nodes
  | .not node => conditions node
  | .raw _ => []
  | .test c => [c]

/-- The conditions of clauses that stand side by side. -/
def conditionsAll : List Clause → List Condition
  | [] => []
  | c :: cs => conditions c ++ conditionsAll cs

end

mutual

/-- Whether two clauses are the same, values compared by `Value.same`. -/
def same : Clause → Clause → Bool
  | .all as, .all bs => sameAll as bs
  | .any as, .any bs => sameAll as bs
  | .not a, .not b => same a b
  | .raw a, .raw b => a == b
  | .test a, .test b => a.same b
  | _, _ => false

/-- `same`, node by node. -/
def sameAll : List Clause → List Clause → Bool
  | [], [] => true
  | a :: as, b :: bs => same a b && sameAll as bs
  | _, _ => false

end

end Clause

end FilterQuery

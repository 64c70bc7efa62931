import FilterQuery.Value

/-!
# Conditions

A condition compares one field with an operand. It knows the field by its
logical key and by the path that the provider keeps it under. The constructors
`compare`, `membership`, `between`, `isNull` and `isNotNull` give an operator the
operand that fits it; a condition made by hand may pair any two.
-/

namespace FilterQuery

/-- A comparison operator. -/
inductive Operator
  | eq | ne | gt | gte | lt | lte
  | like | startsWith | endsWith
  | isIn | notIn
  | between
  | isNull | isNotNull
deriving DecidableEq, Repr

namespace Operator

/-- The short name of an operator. -/
def name : Operator → String
  | eq => "eq"
  | ne => "ne"
  | gt => "gt"
  | gte => "gte"
  | lt => "lt"
  | lte => "lte"
  | like => "like"
  | startsWith => "startsWith"
  | endsWith => "endsWith"
  | isIn => "in"
  | notIn => "nin"
  | between => "between"
  | isNull => "isNull"
  | isNotNull => "isNotNull"

/-- Every operator, once. -/
def all : List Operator :=
  [eq, ne, gt, gte, lt, lte, like, startsWith, endsWith, isIn, notIn, between, isNull, isNotNull]

/-- The operator with the given name. -/
def ofName? (s : String) : Option Operator :=
  all.find? fun op => op.name = s

end Operator

/-- What a condition compares its field with. -/
inductive Operand
  | none
  | value (v : Value)
  | list (vs : List Value)
  /-- Both bounds belong to the range. -/
  | range (low high : Value)

/-- A condition on one field. -/
structure Condition where
  key : String
  path : String
  op : Operator
  operand : Operand

namespace Condition

/-- A comparison with one value. -/
def compare (key path : String) (op : Operator) (v : Value) : Condition :=
  ⟨key, path, op, .value v⟩

/-- Membership in a list, or its negation. -/
def membership (key path : String) (negated : Bool) (vs : List Value) : Condition :=
  ⟨key, path, if negated then .notIn else .isIn, .list vs⟩

def between (key path : String) (low high : Value) : Condition :=
  ⟨key, path, .between, .range low high⟩

def isNull (key path : String) : Condition :=
  ⟨key, path, .isNull, .none⟩

def isNotNull (key path : String) : Condition :=
  ⟨key, path, .isNotNull, .none⟩

end Condition

/-! ## Comparing -/

/-- Whether two operands are the same, values compared by `Value.same`. -/
def Operand.same : Operand → Operand → Bool
  | .none, .none => true
  | .value a, .value b => a.same b
  | .list as, .list bs => Value.sameAll as bs
  | .range a b, .range c d => a.same c && b.same d
  | _, _ => false

/-- Whether two conditions are the same, values compared by `Value.same`. -/
def Condition.same (a b : Condition) : Bool :=
  decide (a.key = b.key ∧ a.path = b.path ∧ a.op = b.op) && a.operand.same b.operand

end FilterQuery

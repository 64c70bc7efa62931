import FilterQuery.Clause.Basic
import FilterQuery.Filter.Basic

/-!
# Filters from condition trees

The filter that asks what a clause asks. A condition whose operand does not fit
its operator becomes equality with a single value, or no operator at all.
-/

namespace FilterQuery

/-- The operator on a single value. An operator that takes no single value
becomes equality. -/
def FieldOp.ofValue (op : Operator) (v : Value) : FieldOp :=
  match op with
  | .ne => .ne v
  | .gt => .gt v
  | .gte => .gte v
  | .lt => .lt v
  | .lte => .lte v
  | .like => .like v.plain
  | .startsWith => .startsWith v.plain
  | .endsWith => .endsWith v.plain
  | _ => .eq v

/-- The test that a condition makes. -/
def FieldTest.ofCondition (c : Condition) : FieldTest :=
  match c.op, c.operand with
  | .isNull, _ => .null
  | .isNotNull, _ => .ops [.ne .null]
  | .isIn, .list vs => .ops [.isIn { values := vs }]
  | .notIn, .list vs => .ops [.notIn { values := vs }]
  | .between, .range low high => .ops [.between low high]
  | op, .value v => .ops [.ofValue op v]
  | _, _ => .ops []

mutual

/-- The entry for a clause. -/
@[simp] def Entry.ofClause : Clause → Entry
  | .all nodes => .all (Filter.ofClauses nodes)
  | .any nodes => .any (Filter.ofClauses nodes)
  | .not node => .not [Entry.ofClause node]
  | .raw fragment => .raw fragment
  | .test c => .field c.key (.ofCondition c)

/-- A filter for each clause. -/
def Filter.ofClauses : List Clause → List Filter
  | [] => []
  | c :: cs => [Entry.ofClause c] :: Filter.ofClauses cs

end

/-- The filter with the one entry for a clause. -/
def Filter.ofClause (c : Clause) : Filter := [Entry.ofClause c]

end FilterQuery

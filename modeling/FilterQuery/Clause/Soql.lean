import FilterQuery.Clause.Basic

/-!
# Conditions and clauses in the query language

The text of one condition: every operator accepts every operand, and where an
operand does not fit, `null` or an empty list stands in its place. The text of a
clause: every inner node puts parentheses around itself, so the text needs no
rules of precedence; raw fragments are written as they are.
-/

namespace FilterQuery

/-! ## Operands and conditions -/

namespace Operand

/-- One value, as a comparison needs it. -/
def single : Operand → String
  | .value v => v.written
  | _ => "null"

/-- A pattern: the text of one value between `before` and `after`. -/
def pattern (before after : String) : Operand → String
  | .value v => Literal.quote (before ++ v.plain ++ after)
  | _ => "null"

/-- The values of a list; one value that is no array is a list of its own. -/
def members : Operand → List Value
  | .list vs => vs
  | .value (.array vs) => vs
  | .value v => [v]
  | _ => []

/-- The two bounds of a range. -/
def bounds : Operand → String × String
  | .range low high => (low.written, high.written)
  | _ => ("null", "null")

/-- The values of a list between parentheses. -/
def listText (o : Operand) : String :=
  "(" ++ ", ".intercalate (o.members.map Value.written) ++ ")"

end Operand

namespace Condition

/-- The text of a condition. -/
def soql (c : Condition) : String :=
  match c.op with
  | .eq => c.path ++ " = " ++ c.operand.single
  | .ne => c.path ++ " != " ++ c.operand.single
  | .gt => c.path ++ " > " ++ c.operand.single
  | .gte => c.path ++ " >= " ++ c.operand.single
  | .lt => c.path ++ " < " ++ c.operand.single
  | .lte => c.path ++ " <= " ++ c.operand.single
  | .like => c.path ++ " LIKE " ++ c.operand.pattern "" ""
  | .startsWith => c.path ++ " LIKE " ++ c.operand.pattern "" "%"
  | .endsWith => c.path ++ " LIKE " ++ c.operand.pattern "%" ""
  | .between =>
      "(" ++ c.path ++ " >= " ++ c.operand.bounds.1 ++ " AND " ++
        c.path ++ " <= " ++ c.operand.bounds.2 ++ ")"
  | .isNull => c.path ++ " = null"
  | .isNotNull => c.path ++ " != null"
  | .isIn => c.path ++ " IN " ++ c.operand.listText
  | .notIn => c.path ++ " NOT IN " ++ c.operand.listText

end Condition

/-! ## Clauses -/

namespace Clause

/-- Texts between parentheses, joined by the keyword of `j`. -/
def joined (j : Junction) (parts : List String) : String :=
  "(" ++ (" " ++ j.keyword ++ " ").intercalate parts ++ ")"

mutual

/-- The text of a clause. -/
def soql : Clause → String
  | .all nodes => joined .conjunction (soqls nodes)
  | .any nodes => joined .disjunction (soqls nodes)
  | .not node => "(NOT " ++ soql node ++ ")"
  | .raw fragment => fragment
  | .test c => c.soql

/-- The texts of clauses that stand side by side. -/
def soqls : List Clause → List String
  | [] => []
  | c :: cs => soql c :: soqls cs

end

end Clause

end FilterQuery

import FilterQuery.Clause.Basic

/-!
# Conditions and clauses for a reader

The summary of a condition: key, path, the name of the operator, and the quoted
texts of the values. Quoting keeps the summary on one line. The outline of a clause
has one line for each node, in the order of a walk from the top, indented by two
blanks for each level above it.
-/

namespace FilterQuery

/-! ## Conditions on one line -/

/-- The quoted text of a value. -/
def Value.shown (v : Value) : String :=
  Quoted.quote v.plain

/-- An operand after the name of its operator. -/
def Operand.summary : Operand → String
  | .none => ""
  | .value v => " " ++ v.shown
  | .list vs => " [" ++ ", ".intercalate (vs.map Value.shown) ++ "]"
  | .range low high => " " ++ low.shown ++ "..=" ++ high.shown

/-- A condition on one line. -/
def Condition.summary (c : Condition) : String :=
  c.key ++ "[" ++ c.path ++ "] " ++ c.op.name ++ c.operand.summary

/-! ## Clauses as indented lines -/

namespace Clause

/-- Two blanks for each level. -/
def indent (depth : Nat) : String :=
  String.ofList (List.replicate (2 * depth) ' ')

mutual

/-- The lines of a clause whose topmost node stands at `depth`. -/
def outlineLines (depth : Nat) : Clause → List String
  | .all nodes => (indent depth ++ "and") :: outlineAll (depth + 1) nodes
  | .any nodes => (indent depth ++ "or") :: outlineAll (depth + 1) nodes
  | .not node => (indent depth ++ "not") :: outlineLines (depth + 1) node
  | .raw fragment => [indent depth ++ "raw " ++ Quoted.quote fragment]
  | .test c => [indent depth ++ c.summary]

/-- The lines of clauses that stand side by side. -/
def outlineAll (depth : Nat) : List Clause → List String
  | [] => []
  | c :: cs => outlineLines depth c ++ outlineAll depth cs

end

/-- The outline of a clause; every line ends with a line feed. -/
def outline (c : Clause) : String :=
  String.join ((outlineLines 0 c).map (· ++ "\n"))

end Clause

end FilterQuery

import FilterQuery.Clause.Basic

/-!
# Truth of condition trees

The connectives that trees are read with, over two truth values and over Kleene's
three, and the truth of a tree where its conditions and raw fragments are given
any truth values.
-/

namespace FilterQuery

/-- Truth values with their connectives. What is true may be left out of a
conjunction, and what is false of a disjunction. -/
structure Logic (α : Type) where
  both : α → α → α
  either : α → α → α
  opposite : α → α
  holds : α
  fails : α
  both_holds : ∀ a, both a holds = a
  either_fails : ∀ a, either a fails = a

namespace Logic

/-- The logic of two truth values. -/
def boolean : Logic Bool where
  both := and
  either := or
  opposite := not
  holds := true
  fails := false
  both_holds := by decide
  either_fails := by decide

end Logic

/-- The truth values of Kleene's logic. -/
inductive Kleene
  | no
  | unknown
  | yes
deriving DecidableEq, Repr

namespace Kleene

/-- False if one part is, true if both are. -/
def both : Kleene → Kleene → Kleene
  | no, _ => no
  | _, no => no
  | yes, yes => yes
  | _, _ => unknown

/-- True if one part is, false if both are. -/
def either : Kleene → Kleene → Kleene
  | yes, _ => yes
  | _, yes => yes
  | no, no => no
  | _, _ => unknown

def opposite : Kleene → Kleene
  | no => yes
  | unknown => unknown
  | yes => no

end Kleene

namespace Logic

/-- Kleene's logic of three truth values. -/
def kleene : Logic Kleene where
  both := .both
  either := .either
  opposite := .opposite
  holds := .yes
  fails := .no
  both_holds := by intro a; cases a <;> rfl
  either_fails := by intro a; cases a <;> rfl

variable {α : Type} (L : Logic α)

/-- The truth of a conjunction. -/
def conjunction (as : List α) : α :=
  as.foldr L.both L.holds

/-- The truth of a disjunction. -/
def disjunction (as : List α) : α :=
  as.foldr L.either L.fails

/-- The conjunction of one part is that part. -/
@[simp]
theorem conjunction_singleton (a : α) : L.conjunction [a] = a :=
  L.both_holds a

end Logic

/-- Truth values for conditions, by path, operator and operand, and for raw
fragments. -/
structure Assignment (α : Type) where
  atom : String → Operator → Operand → α
  raw : String → α

namespace Clause

variable {α : Type} (L : Logic α) (v : Assignment α)

mutual

/-- The truth of a tree. -/
@[simp] def truth : Clause → α
  | .all nodes => L.conjunction (truths nodes)
  | .any nodes => L.disjunction (truths nodes)
  | .not node => L.opposite (truth node)
  | .raw fragment => v.raw fragment
  | .test c => v.atom c.path c.op c.operand

/-- The truth of each of several trees. -/
def truths : List Clause → List α
  | [] => []
  | c :: cs => truth c :: truths cs

end

@[simp, grind =]
theorem truths_eq_map (cs : List Clause) : truths L v cs = cs.map (truth L v) := by
  induction cs with
  | nil => rfl
  | cons c cs ih => rw [truths, ih, List.map_cons]

end Clause

end FilterQuery

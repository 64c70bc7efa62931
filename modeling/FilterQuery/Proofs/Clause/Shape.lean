import FilterQuery.Clause.Soql

/-!
# The shape of condition trees

Induction over a tree with one hypothesis for every child, the two shapes that
statements about trees ask for (no raw fragments, no empty junctions), and the
recursive functions on trees as functions on lists of children.
-/

namespace FilterQuery.Clause

/-- Induction over a tree: a junction may use the statement of all its children. -/
@[induction_eliminator]
theorem induction {P : Clause → Prop}
    (all : ∀ nodes, (∀ c ∈ nodes, P c) → P (.all nodes))
    (any : ∀ nodes, (∀ c ∈ nodes, P c) → P (.any nodes))
    (not : ∀ node, P node → P (.not node))
    (raw : ∀ fragment, P (.raw fragment))
    (test : ∀ c, P (.test c)) (c : Clause) : P c :=
  @Clause.rec P (fun nodes => ∀ c ∈ nodes, P c) all any not raw test
    (by simp) (fun c cs hc hcs => by simpa using ⟨hc, hcs⟩) c

/-! ## Shapes -/

mutual

/-- Whether a tree has no raw fragments. -/
@[simp] def isRawFree : Clause → Bool
  | .all nodes => areRawFree nodes
  | .any nodes => areRawFree nodes
  | .not node => isRawFree node
  | .raw _ => false
  | .test _ => true

/-- `isRawFree` of every tree in a list. -/
def areRawFree : List Clause → Bool
  | [] => true
  | c :: cs => isRawFree c && areRawFree cs

end

mutual

/-- Whether every junction of a tree has a child. -/
@[simp] def isFilled : Clause → Bool
  | .all nodes => !nodes.isEmpty && areFilled nodes
  | .any nodes => !nodes.isEmpty && areFilled nodes
  | .not node => isFilled node
  | .raw _ => true
  | .test _ => true

/-- `isFilled` of every tree in a list. -/
def areFilled : List Clause → Bool
  | [] => true
  | c :: cs => isFilled c && areFilled cs

end

theorem areRawFree_iff {cs : List Clause} :
    areRawFree cs = true ↔ ∀ c ∈ cs, c.isRawFree = true := by
  induction cs with
  | nil => simp [areRawFree]
  | cons c cs ih => simp [areRawFree, ih]

theorem areFilled_iff {cs : List Clause} :
    areFilled cs = true ↔ ∀ c ∈ cs, c.isFilled = true := by
  induction cs with
  | nil => simp [areFilled]
  | cons c cs ih => simp [areFilled, ih]

/-! ## Children as lists -/

@[simp, grind =]
theorem conditionsAll_eq_flatMap (cs : List Clause) :
    conditionsAll cs = cs.flatMap conditions := by
  induction cs with
  | nil => rfl
  | cons c cs ih => rw [conditionsAll, ih, List.flatMap_cons]

@[simp, grind =]
theorem soqls_eq_map (cs : List Clause) : soqls cs = cs.map soql := by
  induction cs with
  | nil => rfl
  | cons c cs ih => rw [soqls, ih, List.map_cons]

theorem mem_conditions_of_mem {t : Condition} {c : Clause} {nodes : List Clause}
    (hc : c ∈ nodes) (ht : t ∈ c.conditions) : t ∈ conditionsAll nodes := by
  rw [conditionsAll_eq_flatMap]
  exact List.mem_flatMap.2 ⟨c, hc, ht⟩

end FilterQuery.Clause

import FilterQuery.Proofs.Filter.Kept
import FilterQuery.Proofs.Filter.Truth

/-!
# The meaning of filters

A filter is read as the conjunction of its entries, and every part that tests
nothing is left out of what it is part of. Main statement: over the keys of a
model, normalization keeps this meaning, and gives no tree where nothing is
tested.
-/

namespace FilterQuery

/-! ## Parts that test nothing -/

/-- Whether a test has no operators. -/
def FieldTest.isVacuous : FieldTest → Bool
  | .ops list => list.isEmpty
  | _ => false

mutual

/-- Whether an entry tests nothing. -/
@[simp] def Entry.isVacuous : Entry → Bool
  | .all filters => Filter.areVacuous filters
  | .any filters => Filter.areVacuous filters
  | .not filter => Filter.isVacuous filter
  | .raw _ => false
  | .field _ test => test.isVacuous

/-- Whether no entry of a filter tests anything. -/
def Filter.isVacuous : Filter → Bool
  | [] => true
  | e :: es => Entry.isVacuous e && Filter.isVacuous es

/-- Whether none of several filters tests anything. -/
def Filter.areVacuous : List Filter → Bool
  | [] => true
  | f :: fs => Filter.isVacuous f && Filter.areVacuous fs

end

/-! ## Truth -/

section

variable {α : Type} (m : Model) (L : Logic α) (v : Assignment α)

/-- The truth of one operator on the field with the path `path`. Being different
from null is having a value. -/
def FieldOp.truth (path : String) : FieldOp → α
  | .eq x => v.atom path .eq (.value x)
  | .ne .null => v.atom path .isNotNull .none
  | .ne x => v.atom path .ne (.value x)
  | .gt x => v.atom path .gt (.value x)
  | .gte x => v.atom path .gte (.value x)
  | .lt x => v.atom path .lt (.value x)
  | .lte x => v.atom path .lte (.value x)
  | .like p => v.atom path .like (.value (.text p))
  | .startsWith p => v.atom path .startsWith (.value (.text p))
  | .endsWith p => v.atom path .endsWith (.value (.text p))
  | .isIn members => v.atom path .isIn (.list members.values)
  | .notIn members => v.atom path .notIn (.list members.values)
  | .between low high => v.atom path .between (.range low high)
  | .present true => v.atom path .isNotNull .none
  | .present false => v.atom path .isNull .none

/-- The truth of a test: null asks for no value, a bare value for equality, and
operators must all hold. -/
def FieldTest.truth (path : String) : FieldTest → α
  | .null => v.atom path .isNull .none
  | .value x => v.atom path .eq (.value x)
  | .ops list => L.conjunction (list.map (FieldOp.truth v path))

mutual

/-- The truth of an entry. -/
@[simp] def Entry.truth : Entry → α
  | .all filters => L.conjunction (Filter.truthsAll filters)
  | .any filters => L.disjunction (Filter.truthsAll filters)
  | .not filter => L.opposite (L.conjunction (Filter.truths filter))
  | .raw fragment => v.raw fragment
  | .field key test => test.truth L v (m.pathFor key)

/-- The truth of each entry that tests something. -/
def Filter.truths : Filter → List α
  | [] => []
  | e :: es =>
      if e.isVacuous then Filter.truths es else Entry.truth e :: Filter.truths es

/-- The truth of each filter that tests something. -/
def Filter.truthsAll : List Filter → List α
  | [] => []
  | f :: fs =>
      if Filter.isVacuous f then Filter.truthsAll fs
      else L.conjunction (Filter.truths f) :: Filter.truthsAll fs

end

/-- The truth of a filter. -/
def Filter.truth (f : Filter) : α :=
  L.conjunction (Filter.truths m L v f)

end

/-! ## Meaning is kept -/

section

variable {α : Type} (m : Model) (L : Logic α) (v : Assignment α)

theorem FieldOp.truth_condition (key path : String) (op : FieldOp) :
    (Clause.test (op.condition key path)).truth L v = op.truth v path := by
  cases op with
  | ne x => cases x <;> rfl
  | present b => cases b <;> rfl
  | _ => rfl

/-- What is joined, if there is anything to join. -/
def joined? (join : List α → α) (as : List α) : Option α :=
  if as.isEmpty then none else some (join as)

/-- The conjunction of clauses means the same whether it has a node of its own or
not. -/
@[simp]
theorem Clause.truth_combine (cs : List Clause) :
    (Clause.combine cs).map (Clause.truth L v) =
      joined? L.conjunction (cs.map (Clause.truth L v)) := by
  match cs with
  | [] => rfl
  | [c] =>
    rw [List.map_singleton, joined?, L.conjunction_singleton]
    rfl
  | c :: d :: rest =>
    rw [← Clause.truths_eq_map]
    rfl

@[simp]
theorem Clause.truth_allOf? (cs : List Clause) :
    (Clause.allOf? cs).map (Clause.truth L v) =
      joined? L.conjunction (cs.map (Clause.truth L v)) := by
  rw [← Clause.truths_eq_map]
  cases cs <;> rfl

@[simp]
theorem Clause.truth_anyOf? (cs : List Clause) :
    (Clause.anyOf? cs).map (Clause.truth L v) =
      joined? L.disjunction (cs.map (Clause.truth L v)) := by
  rw [← Clause.truths_eq_map]
  cases cs <;> rfl

@[simp]
theorem FieldTest.truth_clause? (key path : String) (t : FieldTest) :
    (t.clause? key path).map (Clause.truth L v) =
      if t.isVacuous then none else some (t.truth L v path) := by
  cases t with
  | null => rfl
  | value x => rfl
  | ops list =>
    have each : (list.map fun op => Clause.test (op.condition key path)).map
        (Clause.truth L v) = list.map (FieldOp.truth v path) := by
      rw [List.map_map]
      exact List.map_congr_left fun op _ => FieldOp.truth_condition L v key path op
    rw [FieldTest.clause?, Clause.truth_combine, each]
    cases list <;> rfl

@[simp]
theorem Filter.isEmpty_truths (f : Filter) :
    (Filter.truths m L v f).isEmpty = f.isVacuous := by
  induction f with
  | nil => rfl
  | cons e es ih =>
    rw [Filter.truths, Filter.isVacuous]
    cases e.isVacuous with
    | true => simpa using ih
    | false => rfl

@[simp]
theorem Filter.isEmpty_truthsAll (fs : List Filter) :
    (Filter.truthsAll m L v fs).isEmpty = Filter.areVacuous fs := by
  induction fs with
  | nil => rfl
  | cons f fs ih =>
    rw [Filter.truthsAll, Filter.areVacuous]
    cases Filter.isVacuous f with
    | true => simpa using ih
    | false => rfl

-- The keys must be declared: what the model does not declare is dropped, and
-- that changes what is meant.
mutual

/-- The clause that is kept of an entry means what the entry means. -/
theorem Entry.truth_kept? : ∀ e : Entry, (∀ k ∈ e.keys, m.declares k = true) →
    (e.kept? m).map (Clause.truth L v) =
      if e.isVacuous then none else some (e.truth m L v)
  | .all filters, h => by
      rw [Entry.kept?, Clause.truth_allOf?, Filter.truthsAll_keptAll filters h, joined?,
        Filter.isEmpty_truthsAll]
      rfl
  | .any filters, h => by
      rw [Entry.kept?, Clause.truth_anyOf?, Filter.truthsAll_keptAll filters h, joined?,
        Filter.isEmpty_truthsAll]
      rfl
  | .not filter, h => by
      have inner := Clause.truth_combine L v (Filter.kept m filter)
      rw [Filter.truths_kept filter h, joined?, Filter.isEmpty_truths] at inner
      rw [Entry.kept?, Entry.isVacuous, Option.map_map]
      have opposite : Clause.truth L v ∘ Clause.not = L.opposite ∘ Clause.truth L v := rfl
      rw [opposite, ← Option.map_map, inner]
      cases Filter.isVacuous filter <;> rfl
  | .raw fragment, _ => rfl
  | .field key test, h => by
      obtain ⟨path, hp⟩ : ∃ path, m.pathFor? key = some path := by
        have declared := h key (by simp [Entry.keys])
        cases hp : m.pathFor? key with
        | some path => exact ⟨path, rfl⟩
        | none => simp [Model.pathFor?_eq_none_iff.1 hp] at declared
      have hpath : m.pathFor key = path := by
        rw [Model.pathFor, hp, Option.getD_some]
      rw [Entry.kept?, hp, Option.bind_some, FieldTest.truth_clause?, Entry.isVacuous,
        Entry.truth, hpath]

/-- The clauses of a filter mean what its entries mean. -/
theorem Filter.truths_kept : ∀ f : Filter, (∀ k ∈ f.keys, m.declares k = true) →
    (f.kept m).map (Clause.truth L v) = f.truths m L v
  | [], _ => rfl
  | e :: es, h => by
      have first := Entry.truth_kept? e fun k hk => h k (List.mem_append_left _ hk)
      have others := Filter.truths_kept es fun k hk => h k (List.mem_append_right _ hk)
      rw [Filter.kept, Filter.truths, List.map_append, others, ← Option.toList_map, first]
      cases e.isVacuous <;> rfl

/-- The clauses of several filters mean what the filters mean. -/
theorem Filter.truthsAll_keptAll : ∀ fs : List Filter,
    (∀ k ∈ Filter.keysAll fs, m.declares k = true) →
    (Filter.keptAll m fs).map (Clause.truth L v) = Filter.truthsAll m L v fs
  | [], _ => rfl
  | f :: fs, h => by
      have first := Filter.truths_kept f fun k hk => h k (List.mem_append_left _ hk)
      have others := Filter.truthsAll_keptAll fs fun k hk => h k (List.mem_append_right _ hk)
      rw [Filter.keptAll, Filter.truthsAll, List.map_append, others, ← Option.toList_map,
        Clause.truth_combine, first, joined?, Filter.isEmpty_truths]
      cases Filter.isVacuous f <;> rfl

end

/-- Nothing is kept of a filter over declared keys just if it tests nothing. -/
theorem Filter.combine_kept_eq_none_iff {f : Filter}
    (h : ∀ k ∈ f.keys, m.declares k = true) :
    Clause.combine (f.kept m) = none ↔ f.isVacuous = true := by
  -- any assignment tells a tree from no tree
  obtain ⟨v⟩ : Nonempty (Assignment Bool) := ⟨⟨fun _ _ _ => true, fun _ => true⟩⟩
  have combined := Clause.truth_combine .boolean v (f.kept m)
  rw [Filter.truths_kept m .boolean v f h, joined?, Filter.isEmpty_truths] at combined
  rw [← Option.map_eq_none_iff (f := Clause.truth .boolean v), combined]
  cases f.isVacuous <;> simp

/-- What is kept of a filter over declared keys means what the filter means. -/
theorem Filter.truth_combine_kept {f : Filter} (h : ∀ k ∈ f.keys, m.declares k = true)
    {c : Clause} (hc : Clause.combine (f.kept m) = some c) :
    c.truth L v = f.truth m L v := by
  have combined := Clause.truth_combine L v (f.kept m)
  rw [Filter.truths_kept m L v f h, hc, Option.map_some, joined?] at combined
  split at combined
  · cases combined
  · exact Option.some.inj combined

end

/-- Over the keys of a model every filter is normalized; it has no tree just if it
tests nothing, and else the tree has the truth of the filter, in the logic of two
truth values and in Kleene's. -/
theorem Filter.truth_normalize (m : Model) (policy : Policy) (f : Filter)
    (h : ∀ k ∈ f.keys, m.declares k = true) :
    ∃ n, f.normalize m policy = .ok n ∧ (n.clause = none ↔ f.isVacuous = true) ∧
      ∀ c, n.clause = some c →
        (∀ v : Assignment Bool, c.truth .boolean v = f.truth m .boolean v) ∧
        (∀ v : Assignment Kleene, c.truth .kleene v = f.truth m .kleene v) := by
  refine ⟨{ clause := Clause.combine (f.kept m), directives := f.directives m }, ?_, ?_, ?_⟩
  · rw [Filter.normalize_eq, Model.unlessRefused_of_declares h]
  · exact Filter.combine_kept_eq_none_iff m h
  · intro c hc
    exact ⟨fun v => Filter.truth_combine_kept m .boolean v h hc,
      fun v => Filter.truth_combine_kept m .kleene v h hc⟩

/-- A filter with parts that test nothing, under every connective. -/
def Filter.withHoles : Filter :=
  [.any [[], [.field "name" (.ops [.ne .null, .like "A%"])], [.field "amount" (.ops [])]],
    .not [.field "amount" .null, .all [[]]], .not [.any []], .raw "IsWon = true"]

theorem Filter.truth_normalize_withHoles :
    (∀ k ∈ withHoles.keys, Model.deals.declares k = true) ∧
      ∃ n c, withHoles.normalize .deals .reject = .ok n ∧ n.clause = some c ∧
        (∀ v : Assignment Bool, c.truth .boolean v = withHoles.truth .deals .boolean v) ∧
        (∀ v : Assignment Kleene, c.truth .kleene v = withHoles.truth .deals .kleene v) := by
  have h : ∀ k ∈ withHoles.keys, Model.deals.declares k = true := by decide
  refine ⟨h, ?_⟩
  obtain ⟨n, hn, hnone, hsome⟩ := Filter.truth_normalize .deals .reject withHoles h
  cases hc : n.clause with
  | none => exact absurd (hnone.1 hc) (by decide)
  | some c => exact ⟨n, c, hn, hc, hsome c hc⟩

end FilterQuery

import FilterQuery.Proofs.Document.Parts
import FilterQuery.Proofs.Filter.Shape
import FilterQuery.Proofs.Query.Keys
import Mathlib.Data.List.Basic

/-!
# Unmarked filters

A filter without the chunkings of its membership tests. Main statement: it is
normalized to the same tree, or refused for the same key, and it gives no
directives, so that a query with it is built as if it were marked.
-/

namespace FilterQuery

/-- A test without chunkings. -/
def FieldTest.unmarked : FieldTest → FieldTest
  | .ops list => .ops (list.map FieldOp.unmarked)
  | test => test

mutual

/-- An entry without chunkings, at every depth. -/
@[simp] def Entry.unmarked : Entry → Entry
  | .all filters => .all (Filter.unmarkedAll filters)
  | .any filters => .any (Filter.unmarkedAll filters)
  | .not filter => .not (Filter.unmarked filter)
  | .raw fragment => .raw fragment
  | .field key test => .field key test.unmarked

/-- A filter without chunkings. -/
def Filter.unmarked : Filter → Filter
  | [] => []
  | e :: es => Entry.unmarked e :: Filter.unmarked es

/-- Each filter without chunkings. -/
def Filter.unmarkedAll : List Filter → List Filter
  | [] => []
  | f :: fs => Filter.unmarked f :: Filter.unmarkedAll fs

end

variable {m : Model}

namespace Filter

@[simp, grind =]
theorem unmarked_eq_map (f : Filter) : f.unmarked = f.map Entry.unmarked := by
  induction f with
  | nil => rfl
  | cons e es ih => rw [unmarked, ih, List.map_cons]

@[simp, grind =]
theorem unmarkedAll_eq_map (fs : List Filter) : unmarkedAll fs = fs.map unmarked := by
  induction fs with
  | nil => rfl
  | cons f fs ih => rw [unmarkedAll, ih, List.map_cons]

/-- What is gathered from the entries of a filter is gathered from the unmarked ones, if
that is so for each of them. -/
theorem flatMap_unmarked {β : Type} {g h : Entry → List β} {f : Filter}
    (each : ∀ e ∈ f, g e.unmarked = h e) : f.unmarked.flatMap g = f.flatMap h := by
  rw [unmarked_eq_map, List.flatMap_map]
  exact List.flatMap_congr each

theorem flatMap_unmarkedAll {β : Type} {g h : Filter → List β} {fs : List Filter}
    (each : ∀ f ∈ fs, g f.unmarked = h f) : (unmarkedAll fs).flatMap g = fs.flatMap h := by
  rw [unmarkedAll_eq_map, List.flatMap_map]
  exact List.flatMap_congr each

end Filter

/-! ## The keys of an unmarked filter -/

theorem Filter.keys_unmarked_of_forall {f : Filter} (each : ∀ e ∈ f, e.unmarked.keys = e.keys) :
    f.unmarked.keys = f.keys := by
  rw [keys_eq_flatMap, flatMap_unmarked each, keys_eq_flatMap]

theorem Filter.keysAll_unmarkedAll_of_forall {fs : List Filter}
    (each : ∀ f ∈ fs, ∀ e ∈ f, e.unmarked.keys = e.keys) :
    keysAll (unmarkedAll fs) = keysAll fs := by
  rw [keysAll_eq_flatMap, flatMap_unmarkedAll fun f hf => keys_unmarked_of_forall (each f hf),
    keysAll_eq_flatMap]

@[simp]
theorem Entry.keys_unmarked (e : Entry) : e.unmarked.keys = e.keys := by
  induction e with
  | all filters ih | any filters ih => exact Filter.keysAll_unmarkedAll_of_forall ih
  | not filter ih => exact Filter.keys_unmarked_of_forall ih
  | raw fragment => rfl
  | field key test => rfl

theorem Filter.keys_unmarked (f : Filter) : f.unmarked.keys = f.keys :=
  keys_unmarked_of_forall fun e _ => e.keys_unmarked

/-! ## What is kept of an unmarked filter -/

@[simp]
theorem FieldOp.condition_unmarked (key path : String) (op : FieldOp) :
    op.unmarked.condition key path = op.condition key path := by
  cases op <;> rfl

@[simp]
theorem FieldTest.clause?_unmarked (key path : String) (t : FieldTest) :
    t.unmarked.clause? key path = t.clause? key path := by
  cases t with
  | null => rfl
  | value v => rfl
  | ops list =>
    simp [unmarked, clause?, Function.comp_def]

theorem Filter.kept_unmarked_of_forall {f : Filter}
    (each : ∀ e ∈ f, e.unmarked.kept? m = e.kept? m) : f.unmarked.kept m = f.kept m := by
  rw [kept_eq_flatMap, flatMap_unmarked fun e he => congrArg Option.toList (each e he),
    kept_eq_flatMap]

theorem Filter.keptAll_unmarkedAll_of_forall {fs : List Filter}
    (each : ∀ f ∈ fs, ∀ e ∈ f, e.unmarked.kept? m = e.kept? m) :
    keptAll m (unmarkedAll fs) = keptAll m fs := by
  rw [keptAll_eq_flatMap, flatMap_unmarkedAll, keptAll_eq_flatMap]
  intro f hf
  rw [kept?, kept_unmarked_of_forall (each f hf), kept?]

@[simp]
theorem Entry.kept?_unmarked (e : Entry) : e.unmarked.kept? m = e.kept? m := by
  induction e with
  | all filters ih | any filters ih =>
    simp only [unmarked, kept?, Filter.keptAll_unmarkedAll_of_forall ih]
  | not filter ih => simp only [unmarked, kept?, Filter.kept_unmarked_of_forall ih]
  | raw fragment => rfl
  | field key test => simp

/-- The same clauses are kept of a filter, marked or not. -/
theorem Filter.kept_unmarked (f : Filter) : f.unmarked.kept m = f.kept m :=
  kept_unmarked_of_forall fun e _ => e.kept?_unmarked

/-! ## No directives -/

@[simp]
theorem FieldTest.directives_unmarked (path : String) (t : FieldTest) :
    t.unmarked.directives path = [] := by
  cases t with
  | null => rfl
  | value v => rfl
  | ops list =>
    simp only [unmarked, directives, List.flatMap_map, List.flatMap_eq_nil_iff]
    intro op _
    cases op <;> rfl

theorem Filter.directives_unmarked_of_forall {f : Filter}
    (each : ∀ e ∈ f, e.unmarked.directives m = []) : f.unmarked.directives m = [] := by
  rw [directives_eq_flatMap, flatMap_unmarked each, List.flatMap_eq_nil_iff]
  simp

theorem Filter.directivesAll_unmarkedAll_of_forall {fs : List Filter}
    (each : ∀ f ∈ fs, ∀ e ∈ f, e.unmarked.directives m = []) :
    directivesAll m (unmarkedAll fs) = [] := by
  rw [directivesAll_eq_flatMap,
    flatMap_unmarkedAll fun f hf => directives_unmarked_of_forall (each f hf),
    List.flatMap_eq_nil_iff]
  simp

@[simp]
theorem Entry.directives_unmarked (e : Entry) : e.unmarked.directives m = [] := by
  induction e with
  | all filters ih | any filters ih => exact Filter.directivesAll_unmarkedAll_of_forall ih
  | not filter ih => exact Filter.directives_unmarked_of_forall ih
  | raw fragment => rfl
  | field key test =>
    rw [unmarked, directives]
    split
    · exact test.directives_unmarked _
    · rfl

theorem Filter.directives_unmarked (f : Filter) : f.unmarked.directives m = [] :=
  directives_unmarked_of_forall fun e _ => e.directives_unmarked

/-! ## Normalization and building -/

/-- Without its chunkings a filter is refused for the same key or gives the same tree,
and no directives. -/
theorem Filter.normalize_unmarked (m : Model) (policy : Policy) (f : Filter) :
    f.unmarked.normalize m policy =
      (f.normalize m policy).map fun n => { n with directives := [] } := by
  rw [normalize_eq, normalize_eq, Model.map_unlessRefused, keys_unmarked, kept_unmarked,
    directives_unmarked]

/-- A query is built alike, whether its filter is marked or not. -/
theorem Query.build_matching_unmarked (q : Query) (f : Filter) :
    (q.matching f.unmarked).build = (q.matching f).build := by
  simp only [build_eq, model_matching, policy_matching, keys_matching, descriptor_matching,
    Filter.keys_unmarked, Filter.kept?, Filter.kept_unmarked]

end FilterQuery

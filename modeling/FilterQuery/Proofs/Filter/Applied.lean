import FilterQuery.Proofs.Clause.Shape
import FilterQuery.Proofs.Filter.Shape
import Mathlib.Data.List.Basic

/-!
# Applied operators

The tests of a filter in their order, and the operators that they apply to declared
fields. Main statement: the conditions of the normalized tree are the conditions of
these operators, one for each, and the directives are those of the marked ones among
them, so that the directives are found among the conditions in the same order.
-/

namespace FilterQuery

/-! ## Tests -/

mutual

/-- The tests of an entry with their keys, from left to right, at every depth. -/
@[simp] def Entry.tests : Entry → List (String × FieldTest)
  | .all filters => Filter.testsAll filters
  | .any filters => Filter.testsAll filters
  | .not filter => Filter.tests filter
  | .raw _ => []
  | .field key test => [(key, test)]

/-- The tests of a filter. -/
def Filter.tests : Filter → List (String × FieldTest)
  | [] => []
  | e :: es => Entry.tests e ++ Filter.tests es

/-- The tests of filters that stand side by side. -/
def Filter.testsAll : List Filter → List (String × FieldTest)
  | [] => []
  | f :: fs => Filter.tests f ++ Filter.testsAll fs

end

@[simp, grind =]
theorem Filter.tests_eq_flatMap (f : Filter) : f.tests = f.flatMap Entry.tests := by
  induction f with
  | nil => rfl
  | cons e es ih => rw [tests, ih, List.flatMap_cons]

@[simp, grind =]
theorem Filter.testsAll_eq_flatMap (fs : List Filter) : testsAll fs = fs.flatMap tests := by
  induction fs with
  | nil => rfl
  | cons f fs ih => rw [testsAll, ih, List.flatMap_cons]

/-- The operators that a test applies; the short forms stand for one each. -/
def FieldTest.operators : FieldTest → List FieldOp
  | .null => [.present false]
  | .value v => [.eq v]
  | .ops list => list

/-- An operator applied to a declared field. -/
structure Application where
  key : String
  path : String
  op : FieldOp

/-- The directive of a membership test that is marked and has a value. -/
def Membership.directive? (path : String) (negated : Bool) (m : Membership) : Option Directive :=
  match m.chunking, m.values with
  | some c, v :: vs => some ⟨path, negated, v :: vs, c⟩
  | _, _ => none

namespace Application

/-- The condition that the operator puts on the field. -/
def condition (a : Application) : Condition :=
  a.op.condition a.key a.path

/-- The directive of the operator, if it is a marked membership test with a value. -/
def directive? (a : Application) : Option Directive :=
  match a.op with
  | .isIn members => members.directive? a.path false
  | .notIn members => members.directive? a.path true
  | _ => none

end Application

/-- The operators that a test applies, if the model declares its key. -/
def Model.applied (m : Model) (test : String × FieldTest) : List Application :=
  match m.pathFor? test.1 with
  | some path => test.2.operators.map (Application.mk test.1 path)
  | none => []

/-- The operators that a filter applies to declared fields, in their order. -/
def Filter.applied (m : Model) (f : Filter) : List Application :=
  f.tests.flatMap m.applied

variable {m : Model}

/-! ## Conditions -/

namespace Clause

@[simp]
theorem flatMap_conditions_combine (cs : List Clause) :
    (combine cs).toList.flatMap conditions = cs.flatMap conditions := by
  match cs with
  | [] => rfl
  | [c] => rfl
  | c :: d :: rest => exact (List.append_nil _).trans (conditionsAll_eq_flatMap _)

@[simp]
theorem flatMap_conditions_allOf? (cs : List Clause) :
    (allOf? cs).toList.flatMap conditions = cs.flatMap conditions := by
  cases cs with
  | nil => rfl
  | cons c cs => exact (List.append_nil _).trans (conditionsAll_eq_flatMap _)

@[simp]
theorem flatMap_conditions_anyOf? (cs : List Clause) :
    (anyOf? cs).toList.flatMap conditions = cs.flatMap conditions := by
  cases cs with
  | nil => rfl
  | cons c cs => exact (List.append_nil _).trans (conditionsAll_eq_flatMap _)

@[simp]
theorem flatMap_conditions_map_not (o : Option Clause) :
    (o.map .not).toList.flatMap conditions = o.toList.flatMap conditions := by
  cases o <;> rfl

end Clause

/-- The conditions of a test are those of the operators that it applies. -/
@[simp]
theorem FieldTest.flatMap_conditions_clause? (key path : String) (t : FieldTest) :
    (t.clause? key path).toList.flatMap Clause.conditions =
      (t.operators.map (Application.mk key path)).map Application.condition := by
  cases t with
  | null => rfl
  | value v => rfl
  | ops list =>
    rw [clause?, Clause.flatMap_conditions_combine, List.flatMap_map, operators, List.map_map,
      List.map_eq_flatMap]
    rfl

theorem Filter.flatMap_conditions_kept_of_forall {f : Filter}
    (each : ∀ e ∈ f, (e.kept? m).toList.flatMap Clause.conditions =
      (e.tests.flatMap m.applied).map Application.condition) :
    (f.kept m).flatMap Clause.conditions = (f.applied m).map Application.condition := by
  rw [kept_eq_flatMap, List.flatMap_assoc, List.flatMap_congr each, applied, tests_eq_flatMap,
    List.flatMap_assoc, List.map_flatMap]

theorem Filter.flatMap_conditions_keptAll_of_forall {fs : List Filter}
    (each : ∀ f ∈ fs, ∀ e ∈ f, (e.kept? m).toList.flatMap Clause.conditions =
      (e.tests.flatMap m.applied).map Application.condition) :
    (keptAll m fs).flatMap Clause.conditions =
      ((testsAll fs).flatMap m.applied).map Application.condition := by
  rw [keptAll_eq_flatMap, List.flatMap_assoc, testsAll_eq_flatMap, List.flatMap_assoc,
    List.map_flatMap]
  refine List.flatMap_congr fun f hf => ?_
  rw [kept?, Clause.flatMap_conditions_combine, flatMap_conditions_kept_of_forall (each f hf),
    applied]

/-- The conditions of what is kept of an entry are those of the operators that it
applies to declared fields. -/
@[simp]
theorem Entry.flatMap_conditions_kept? (e : Entry) :
    (e.kept? m).toList.flatMap Clause.conditions =
      (e.tests.flatMap m.applied).map Application.condition := by
  induction e with
  | all filters ih =>
    rw [kept?, Clause.flatMap_conditions_allOf?, Filter.flatMap_conditions_keptAll_of_forall ih,
      tests]
  | any filters ih =>
    rw [kept?, Clause.flatMap_conditions_anyOf?, Filter.flatMap_conditions_keptAll_of_forall ih,
      tests]
  | not filter ih =>
    rw [kept?, Clause.flatMap_conditions_map_not, Clause.flatMap_conditions_combine,
      Filter.flatMap_conditions_kept_of_forall ih, Filter.applied, tests]
  | raw fragment => rfl
  | field key test =>
    rw [kept?, tests, List.flatMap_singleton, Model.applied]
    cases m.pathFor? key with
    | none => rfl
    | some path => exact test.flatMap_conditions_clause? key path

/-- The conditions of a normalized tree, if there is one. -/
def Normalized.conditions (n : Normalized) : List Condition :=
  n.clause.toList.flatMap Clause.conditions

/-! ## Directives -/

@[simp]
theorem Membership.toList_directive? (path : String) (negated : Bool) (m : Membership) :
    (m.directive? path negated).toList = m.directives path negated := by
  unfold directive? directives
  cases m.chunking with
  | none => rfl
  | some c => cases m.values <;> rfl

@[simp]
theorem Application.toList_directive? (a : Application) :
    a.directive?.toList = a.op.directives a.path := by
  obtain ⟨key, path, op⟩ := a
  cases op with
  | isIn members => exact members.toList_directive? path false
  | notIn members => exact members.toList_directive? path true
  | _ => rfl

/-- The directives of a test are those of the operators that it applies. -/
theorem FieldTest.directives_eq_filterMap (key path : String) (t : FieldTest) :
    t.directives path =
      (t.operators.map (Application.mk key path)).filterMap Application.directive? := by
  cases t with
  | null => rfl
  | value v => rfl
  | ops list =>
    rw [List.filterMap_eq_flatMap_toList, operators, List.flatMap_map, directives]
    exact List.flatMap_congr fun op _ => (Application.toList_directive? ⟨key, path, op⟩).symm

theorem Filter.directives_eq_filterMap_of_forall {f : Filter} (each : ∀ e ∈ f,
    e.directives m = (e.tests.flatMap m.applied).filterMap Application.directive?) :
    f.directives m = (f.applied m).filterMap Application.directive? := by
  rw [directives_eq_flatMap, List.flatMap_congr each, applied, tests_eq_flatMap,
    List.flatMap_assoc, List.filterMap_flatMap]

theorem Filter.directivesAll_eq_filterMap_of_forall {fs : List Filter} (each : ∀ f ∈ fs, ∀ e ∈ f,
    e.directives m = (e.tests.flatMap m.applied).filterMap Application.directive?) :
    directivesAll m fs =
      ((testsAll fs).flatMap m.applied).filterMap Application.directive? := by
  rw [directivesAll_eq_flatMap,
    List.flatMap_congr fun f hf => directives_eq_filterMap_of_forall (each f hf),
    testsAll_eq_flatMap, List.flatMap_assoc, List.filterMap_flatMap]
  rfl

theorem Entry.directives_eq_filterMap (e : Entry) :
    e.directives m = (e.tests.flatMap m.applied).filterMap Application.directive? := by
  induction e with
  | all filters ih | any filters ih => exact Filter.directivesAll_eq_filterMap_of_forall ih
  | not filter ih => exact Filter.directives_eq_filterMap_of_forall ih
  | raw fragment => rfl
  | field key test =>
    rw [directives, tests, List.flatMap_singleton, Model.applied]
    cases m.pathFor? key with
    | none => rfl
    | some path => exact test.directives_eq_filterMap key path

/-- The directives of a filter are those of the marked membership tests with a value that
it applies to declared fields, in their order. -/
theorem Filter.directives_eq_filterMap (f : Filter) :
    f.directives m = (f.applied m).filterMap Application.directive? :=
  directives_eq_filterMap_of_forall fun e _ => e.directives_eq_filterMap

/-! ## Directives among conditions -/

/-- The operator of the condition that a directive belongs to. -/
def Directive.operator (d : Directive) : Operator :=
  if d.negated then .notIn else .isIn

/-- A directive has the path, the operator and the values of the condition of its
operator. -/
theorem Application.condition_of_directive? {a : Application} {d : Directive}
    (h : a.directive? = some d) : (a.condition.path, a.condition.op, a.condition.operand) =
      (d.path, d.operator, Operand.list d.values) := by
  obtain ⟨key, path, op⟩ := a
  have member : ∀ {negated : Bool} {members : Membership},
      members.directive? path negated = some d →
        d.path = path ∧ d.negated = negated ∧ d.values = members.values := by
    intro negated members hd
    unfold Membership.directive? at hd
    split at hd
    · cases hd
      exact ⟨rfl, rfl, by simp [*]⟩
    · cases hd
  cases op with
  | isIn members | notIn members =>
    obtain ⟨hp, hn, hv⟩ := member h
    simp [condition, FieldOp.condition, Condition.membership, Directive.operator, hp, hn, hv]
  | _ => cases h

theorem sublist_map_of_filterMap {α β γ : Type} {f : α → Option β} {g : β → γ} {h : α → γ}
    (each : ∀ a b, f a = some b → h a = g b) (as : List α) :
    ((as.filterMap f).map g).Sublist (as.map h) := by
  induction as with
  | nil => exact .slnil
  | cons a as ih =>
    cases hf : f a with
    | none =>
      rw [List.filterMap_cons_none hf]
      exact ih.cons _
    | some b =>
      rw [List.filterMap_cons_some hf, List.map_cons, List.map_cons, each a b hf]
      exact ih.cons_cons _

/-- A filter that is normalized gives a condition for each operator that it applies to a
declared field, and a directive for each of them that is a marked membership test with a
value, both in the order of the filter. -/
theorem Filter.conditions_and_directives_of_normalize {policy : Policy} {f : Filter}
    {n : Normalized} (h : f.normalize m policy = .ok n) :
    n.conditions = (f.applied m).map Application.condition ∧
      n.directives = (f.applied m).filterMap Application.directive? := by
  rw [normalize_eq] at h
  obtain rfl := Model.eq_of_unlessRefused_eq_ok h
  refine ⟨?_, f.directives_eq_filterMap⟩
  rw [Normalized.conditions, Clause.flatMap_conditions_combine]
  exact flatMap_conditions_kept_of_forall fun e _ => e.flatMap_conditions_kept?

/-- The directives are found among the conditions of the tree, in the same order. -/
theorem Filter.directives_sublist_conditions {policy : Policy} {f : Filter} {n : Normalized}
    (h : f.normalize m policy = .ok n) :
    (n.directives.map fun d => (d.path, d.operator, Operand.list d.values)).Sublist
      (n.conditions.map fun c => (c.path, c.op, c.operand)) := by
  obtain ⟨conditions, directives⟩ := conditions_and_directives_of_normalize h
  rw [conditions, directives, List.map_map]
  exact sublist_map_of_filterMap (fun _ _ hd => Application.condition_of_directive? hd) _

end FilterQuery

import FilterQuery.Filter.OfClause
import FilterQuery.Proofs.Clause.Shape
import FilterQuery.Proofs.Filter.Kept

/-!
# Canonical condition trees

The trees that normalization gives, described without it: no junction is empty,
every condition has a declared key with the path of the model, and its operand
fits its operator. Main statement: normalization gives canonical trees only, and
a tree is canonical just if the filter that asks for it is normalized to the very
same tree, with no directives.
-/

namespace FilterQuery

/-- Whether the operand is one that normalization gives to the operator. -/
def Operator.takes : Operator → Operand → Bool
  | .isNull, .none | .isNotNull, .none => true
  | .isIn, .list _ | .notIn, .list _ => true
  | .between, .range _ _ => true
  | .like, .value (.text _) | .startsWith, .value (.text _) | .endsWith, .value (.text _) => true
  | .ne, .value v => !v.isNull
  | .eq, .value _ | .gt, .value _ | .gte, .value _ | .lt, .value _ | .lte, .value _ => true
  | _, _ => false

/-- A condition on a declared field, under its path, whose operand fits. -/
def Condition.IsCanonical (m : Model) (c : Condition) : Prop :=
  m.pathFor? c.key = some c.path ∧ c.op.takes c.operand = true

/-- A tree of canonical conditions without empty junctions. -/
def Clause.IsCanonical (m : Model) (c : Clause) : Prop :=
  c.isFilled = true ∧ ∀ t ∈ c.conditions, t.IsCanonical m

variable {m : Model}

namespace Clause

theorem isCanonical_all {nodes : List Clause} :
    (Clause.all nodes).IsCanonical m ↔ nodes ≠ [] ∧ ∀ c ∈ nodes, c.IsCanonical m := by
  simp only [IsCanonical, isFilled, conditions, conditionsAll_eq_flatMap, List.mem_flatMap,
    Bool.and_eq_true, Bool.not_eq_true', List.isEmpty_eq_false_iff, areFilled_iff]
  constructor
  · rintro ⟨⟨hne, hf⟩, ht⟩
    exact ⟨hne, fun c hc => ⟨hf c hc, fun t h => ht t ⟨c, hc, h⟩⟩⟩
  · rintro ⟨hne, h⟩
    refine ⟨⟨hne, fun c hc => (h c hc).1⟩, ?_⟩
    rintro t ⟨c, hc, ht⟩
    exact (h c hc).2 t ht

theorem isCanonical_any {nodes : List Clause} :
    (Clause.any nodes).IsCanonical m ↔ nodes ≠ [] ∧ ∀ c ∈ nodes, c.IsCanonical m :=
  isCanonical_all

@[simp]
theorem isCanonical_not {node : Clause} : (Clause.not node).IsCanonical m ↔ node.IsCanonical m :=
  Iff.rfl

theorem isCanonical_raw (fragment : String) : (Clause.raw fragment).IsCanonical m :=
  ⟨rfl, by simp [conditions]⟩

@[simp]
theorem isCanonical_test {c : Condition} : (Clause.test c).IsCanonical m ↔ c.IsCanonical m := by
  simp [IsCanonical]

theorem isCanonical_of_combine {cs : List Clause} (h : ∀ c ∈ cs, c.IsCanonical m) {c : Clause}
    (hc : combine cs = some c) : c.IsCanonical m := by
  match cs with
  | [] => cases hc
  | [d] =>
    cases hc
    exact h c (by simp)
  | d :: e :: rest =>
    cases hc
    exact isCanonical_all.2 ⟨by simp, h⟩

theorem isCanonical_of_allOf? {cs : List Clause} (h : ∀ c ∈ cs, c.IsCanonical m) {c : Clause}
    (hc : allOf? cs = some c) : c.IsCanonical m := by
  cases cs with
  | nil => cases hc
  | cons d rest =>
    cases hc
    exact isCanonical_all.2 ⟨by simp, h⟩

theorem isCanonical_of_anyOf? {cs : List Clause} (h : ∀ c ∈ cs, c.IsCanonical m) {c : Clause}
    (hc : anyOf? cs = some c) : c.IsCanonical m := by
  cases cs with
  | nil => cases hc
  | cons d rest =>
    cases hc
    exact isCanonical_any.2 ⟨by simp, h⟩

end Clause

/-! ## What is kept is canonical -/

theorem FieldOp.isCanonical_condition {key path : String} (h : m.pathFor? key = some path)
    (op : FieldOp) : (op.condition key path).IsCanonical m := by
  cases op with
  | ne v => cases v <;> exact ⟨h, rfl⟩
  | present b => cases b <;> exact ⟨h, rfl⟩
  | _ => exact ⟨h, rfl⟩

theorem FieldTest.isCanonical_clause? {key path : String} (h : m.pathFor? key = some path)
    {t : FieldTest} {c : Clause} (hc : t.clause? key path = some c) : c.IsCanonical m := by
  cases t with
  | null =>
    cases hc
    exact Clause.isCanonical_test.2 ⟨h, rfl⟩
  | value v =>
    cases hc
    exact Clause.isCanonical_test.2 ⟨h, rfl⟩
  | ops list =>
    refine Clause.isCanonical_of_combine ?_ hc
    intro d hd
    obtain ⟨op, _, rfl⟩ := List.mem_map.1 hd
    exact Clause.isCanonical_test.2 (op.isCanonical_condition h)

mutual

theorem Entry.isCanonical_of_kept? : ∀ (e : Entry) (c : Clause),
    e.kept? m = some c → c.IsCanonical m
  | .all filters, c, hc =>
      Clause.isCanonical_of_allOf? (Filter.isCanonical_of_mem_keptAll filters) hc
  | .any filters, c, hc =>
      Clause.isCanonical_of_anyOf? (Filter.isCanonical_of_mem_keptAll filters) hc
  | .not filter, c, hc => by
      obtain ⟨d, hd, rfl⟩ := Option.map_eq_some_iff.1 hc
      exact Clause.isCanonical_not.2
        (Clause.isCanonical_of_combine (Filter.isCanonical_of_mem_kept filter) hd)
  | .raw fragment, c, hc => by
      cases hc
      exact Clause.isCanonical_raw fragment
  | .field key test, c, hc => by
      obtain ⟨path, hp, ht⟩ := Option.bind_eq_some_iff.1 hc
      exact FieldTest.isCanonical_clause? hp ht

/-- The clauses that are kept of a filter are canonical. -/
theorem Filter.isCanonical_of_mem_kept : ∀ (f : Filter),
    ∀ c ∈ f.kept m, c.IsCanonical m
  | [], c, hc => by simp [Filter.kept] at hc
  | e :: es, c, hc => by
      rw [Filter.kept, List.mem_append, Option.mem_toList] at hc
      rcases hc with hc | hc
      · exact Entry.isCanonical_of_kept? e c hc
      · exact Filter.isCanonical_of_mem_kept es c hc

theorem Filter.isCanonical_of_mem_keptAll : ∀ (fs : List Filter),
    ∀ c ∈ Filter.keptAll m fs, c.IsCanonical m
  | [], c, hc => by simp [Filter.keptAll] at hc
  | f :: fs, c, hc => by
      rw [Filter.keptAll, List.mem_append, Option.mem_toList] at hc
      rcases hc with hc | hc
      · exact Clause.isCanonical_of_combine (Filter.isCanonical_of_mem_kept f) hc
      · exact Filter.isCanonical_of_mem_keptAll fs c hc

end

/-- Whatever normalization gives is canonical. -/
theorem Filter.isCanonical_of_normalize {policy : Policy} {f : Filter} {n : Normalized}
    {c : Clause} (hn : f.normalize m policy = .ok n) (hc : n.clause = some c) :
    c.IsCanonical m := by
  rw [Filter.normalize_eq] at hn
  have e := Model.eq_of_unlessRefused_eq_ok hn
  subst e
  exact Clause.isCanonical_of_combine f.isCanonical_of_mem_kept hc

/-! ## A canonical tree is kept as it is -/

/-- The test made of a condition whose operand fits puts that condition on the
field. -/
theorem FieldTest.clause?_ofCondition {c : Condition} (h : c.op.takes c.operand = true) :
    (FieldTest.ofCondition c).clause? c.key c.path = some (.test c) := by
  obtain ⟨key, path, op, operand⟩ := c
  cases op with
  | eq | gt | gte | lt | lte =>
    cases operand with
    | value v => rfl
    | none | list | range => cases h
  | ne =>
    cases operand with
    | value v =>
      -- null would become a test for having a value
      cases v with
      | null => cases h
      | _ => rfl
    | none | list | range => cases h
  | like | startsWith | endsWith =>
    cases operand with
    | value v =>
      -- only a text is its own pattern
      cases v with
      | text s => rfl
      | null | bool | int | double | date | timestamp | array => cases h
    | none | list | range => cases h
  | isIn | notIn =>
    cases operand with
    | list vs => rfl
    | none | value | range => cases h
  | between =>
    cases operand with
    | range low high => rfl
    | none | value | list => cases h
  | isNull | isNotNull =>
    cases operand with
    | none => rfl
    | value | list | range => cases h

theorem Filter.kept_ofClause (c : Clause) :
    (Filter.ofClause c).kept m = ((Entry.ofClause c).kept? m).toList := by
  rw [Filter.ofClause, Filter.kept, Filter.kept, List.append_nil]

theorem Filter.keptAll_ofClauses {nodes : List Clause}
    (h : ∀ c ∈ nodes, (Entry.ofClause c).kept? m = some c) :
    Filter.keptAll m (Filter.ofClauses nodes) = nodes := by
  induction nodes with
  | nil => rfl
  | cons c cs ih =>
    have first : Filter.kept m [Entry.ofClause c] = [c] := by
      rw [← Filter.ofClause, Filter.kept_ofClause, h c (by simp), Option.toList_some]
    rw [Filter.ofClauses, Filter.keptAll, first, ih fun d hd => h d (by simp [hd])]
    rfl

/-- Of the filter for a canonical tree the whole tree is kept. -/
theorem Entry.kept?_ofClause {c : Clause} (h : c.IsCanonical m) :
    (Entry.ofClause c).kept? m = some c := by
  induction c with
  | all nodes ih =>
    obtain ⟨hne, hc⟩ := Clause.isCanonical_all.1 h
    rw [Entry.ofClause, Entry.kept?, Filter.keptAll_ofClauses fun c hm => ih c hm (hc c hm)]
    cases nodes with
    | nil => exact absurd rfl hne
    | cons c cs => rfl
  | any nodes ih =>
    obtain ⟨hne, hc⟩ := Clause.isCanonical_any.1 h
    rw [Entry.ofClause, Entry.kept?, Filter.keptAll_ofClauses fun c hm => ih c hm (hc c hm)]
    cases nodes with
    | nil => exact absurd rfl hne
    | cons c cs => rfl
  | not node ih =>
    rw [Entry.ofClause, Entry.kept?, ← Filter.ofClause, Filter.kept_ofClause,
      ih (Clause.isCanonical_not.1 h)]
    rfl
  | raw fragment => rfl
  | test c =>
    obtain ⟨hp, hop⟩ := Clause.isCanonical_test.1 h
    rw [Entry.ofClause, Entry.kept?, hp, Option.bind_some, FieldTest.clause?_ofCondition hop]

/-! ## Keys and directives of the filter for a tree -/

theorem Filter.keysAll_ofClauses {nodes : List Clause}
    (h : ∀ c ∈ nodes, (Entry.ofClause c).keys = c.conditions.map Condition.key) :
    Filter.keysAll (Filter.ofClauses nodes) =
      (Clause.conditionsAll nodes).map Condition.key := by
  induction nodes with
  | nil => rfl
  | cons c cs ih =>
    rw [Filter.ofClauses, Filter.keysAll, Filter.keys, Filter.keys, h c (by simp),
      ih fun d hd => h d (by simp [hd]), Clause.conditionsAll, List.map_append, List.append_nil]

@[simp]
theorem Entry.keys_ofClause (c : Clause) :
    (Entry.ofClause c).keys = c.conditions.map Condition.key := by
  induction c with
  | all nodes ih => exact Filter.keysAll_ofClauses ih
  | any nodes ih => exact Filter.keysAll_ofClauses ih
  | not node ih =>
    rw [Entry.ofClause, Entry.keys, Filter.keys, Filter.keys, ih, List.append_nil,
      Clause.conditions]
  | raw fragment => rfl
  | test c => rfl

theorem Filter.keys_ofClause (c : Clause) :
    (Filter.ofClause c).keys = c.conditions.map Condition.key := by
  rw [Filter.ofClause, Filter.keys, Filter.keys, List.append_nil, Entry.keys_ofClause]

theorem Clause.IsCanonical.declares {c : Clause} (h : c.IsCanonical m) :
    ∀ k ∈ (Filter.ofClause c).keys, m.declares k = true := by
  intro k hk
  rw [Filter.keys_ofClause] at hk
  obtain ⟨t, ht, rfl⟩ := List.mem_map.1 hk
  rw [← Bool.not_eq_false, ← Model.pathFor?_eq_none_iff, (h.2 t ht).1]
  simp

@[simp]
theorem FieldTest.directives_ofCondition (path : String) (c : Condition) :
    (FieldTest.ofCondition c).directives path = [] := by
  obtain ⟨key, path, op, operand⟩ := c
  cases op <;> cases operand <;> rfl

theorem Filter.directivesAll_ofClauses {nodes : List Clause}
    (h : ∀ c ∈ nodes, (Entry.ofClause c).directives m = []) :
    Filter.directivesAll m (Filter.ofClauses nodes) = [] := by
  induction nodes with
  | nil => rfl
  | cons c cs ih =>
    rw [Filter.ofClauses, Filter.directivesAll, Filter.directives, Filter.directives,
      h c (by simp), ih fun d hd => h d (by simp [hd])]
    rfl

/-- The filter for a tree asks for no batches. -/
@[simp]
theorem Entry.directives_ofClause (c : Clause) : (Entry.ofClause c).directives m = [] := by
  induction c with
  | all nodes ih => exact Filter.directivesAll_ofClauses ih
  | any nodes ih => exact Filter.directivesAll_ofClauses ih
  | not node ih =>
    rw [Entry.ofClause, Entry.directives, Filter.directives, Filter.directives, ih]
    rfl
  | raw fragment => rfl
  | test c =>
    cases hp : m.pathFor? c.key with
    | none => simp [hp]
    | some path =>
      simp only [Entry.ofClause, Entry.directives, hp]
      exact FieldTest.directives_ofCondition path c

theorem Filter.normalize_ofClause (policy : Policy) {c : Clause} (h : c.IsCanonical m) :
    (Filter.ofClause c).normalize m policy = .ok { clause := some c, directives := [] } := by
  have directives : (Filter.ofClause c).directives m = [] := by
    rw [Filter.ofClause, Filter.directives, Filter.directives, Entry.directives_ofClause]
    rfl
  rw [Filter.normalize_eq, Model.unlessRefused_of_declares h.declares, directives,
    Filter.kept_ofClause, Entry.kept?_ofClause h]
  rfl

/-- Normalization gives canonical trees, and the canonical trees are those that it
gives back unchanged. -/
theorem Clause.isCanonical_iff_normalize_ofClause (m : Model) :
    (∀ (policy : Policy) (f : Filter) (n : Normalized) (c : Clause),
      f.normalize m policy = .ok n → n.clause = some c → c.IsCanonical m) ∧
      ∀ (policy : Policy) (t : Clause),
        (Filter.ofClause t).normalize m policy = .ok { clause := some t, directives := [] } ↔
          t.IsCanonical m := by
  refine ⟨fun _ _ _ _ hn hc => Filter.isCanonical_of_normalize hn hc, ?_⟩
  intro policy t
  constructor
  · intro h
    exact Filter.isCanonical_of_normalize h rfl
  · exact Filter.normalize_ofClause policy

/-- A canonical tree with a junction of one child, and operands of every kind. -/
def Clause.owned : Clause :=
  .all [.any [.test (.compare "owner" "Owner.Name" .like (.text "A%"))],
    .not (.any [.test (.isNull "amount" "Amount"), .test (.between "amount" "Amount" .null .null)]),
    .test (.membership "id" "Id" true []), .raw "IsWon = true"]

/-- A condition that normalization gives as a test for having a value. -/
def Clause.named : Clause :=
  .test (.compare "name" "Name" .ne .null)

theorem Clause.isCanonical_iff_normalize_ofClause_owned :
    (owned.IsCanonical .deals ∧ (Filter.ofClause owned).normalize .deals .reject =
      .ok { clause := some owned, directives := [] }) ∧
      (¬ named.IsCanonical .deals ∧ (Filter.ofClause named).normalize .deals .reject ≠
        .ok { clause := some named, directives := [] }) ∧
      ∃ n c, (Filter.ofClause named).normalize .deals .reject = .ok n ∧ n.clause = some c ∧
        c.IsCanonical .deals := by
  obtain ⟨canonical, unchanged⟩ := isCanonical_iff_normalize_ofClause .deals
  have h : owned.IsCanonical .deals := by
    refine ⟨by decide, ?_⟩
    simp only [owned, Clause.conditions, Clause.conditionsAll, Condition.IsCanonical]
    decide
  have hn : ¬ named.IsCanonical .deals := fun hn =>
    absurd (hn.2 (.compare "name" "Name" .ne .null) (by simp [named, conditions])).2 (by decide)
  refine ⟨⟨h, (unchanged .reject owned).2 h⟩, ⟨hn, ?_⟩, ?_⟩
  · exact fun e => hn ((unchanged .reject named).1 e)
  refine ⟨_, .test (.isNotNull "name" "Name"), rfl, rfl, ?_⟩
  exact canonical .reject (Filter.ofClause named) _ _ rfl rfl

end FilterQuery

import FilterQuery.Clause.Soql
import FilterQuery.Proofs.Filter.Canonical

/-!
# Filters from conditions made by hand

The filter for a condition asks what the condition asks, whatever operand was put beside
the operator. Each pair of an operator and an operand goes one of three ways: the operand
has the shape that the operator takes, one value stands where a list or a range belongs, or
nothing can be made of it. Main statement: the normalized filter has the text of the
condition, or nothing is left of it, except where one value stands for a list or a range;
that value is compared for equality.
-/

namespace FilterQuery

/-- Whether an operand has the shape that an operator takes. A test for null looks at no
operand. -/
def Operator.accepts : Operator → Operand → Bool
  | .isNull, _ | .isNotNull, _ => true
  | .isIn, .list _ | .notIn, .list _ => true
  | .between, .range _ _ => true
  | .isIn, _ | .notIn, _ | .between, _ => false
  | _, .value _ => true
  | _, _ => false

namespace Condition

/-- One value where a list or a range belongs. -/
inductive HasLoneValue : Condition → Prop
  | isIn (key path : String) (v : Value) : HasLoneValue ⟨key, path, .isIn, .value v⟩
  | notIn (key path : String) (v : Value) : HasLoneValue ⟨key, path, .notIn, .value v⟩
  | between (key path : String) (v : Value) : HasLoneValue ⟨key, path, .between, .value v⟩

variable {m : Model} {c : Condition}

/-- The three ways are apart. -/
theorem HasLoneValue.accepts_eq_false (h : c.HasLoneValue) : c.op.accepts c.operand = false := by
  cases h <;> rfl

/-! ## The three ways -/

/-- An operand of the right shape comes back with the text of the condition. -/
theorem map_soql_clause?_of_accepts (h : c.op.accepts c.operand = true) :
    ((FieldTest.ofCondition c).clause? c.key c.path).map Clause.soql = some c.soql := by
  obtain ⟨key, path, op, operand⟩ := c
  cases op with
  | isNull | isNotNull => rfl
  | isIn | notIn =>
    cases operand with
    | list vs => rfl
    | none | value | range => cases h
  | between =>
    cases operand with
    | range low high => rfl
    | none | value | list => cases h
  | ne =>
    cases operand with
    | value v =>
      cases v with
      | null =>
        -- being different from null comes back as a test for a value, which is written alike
        have alike : path ++ " != null" = path ++ " != " ++ "null" := by
          rw [String.append_assoc]
          rfl
        exact congrArg some alike
      | _ => rfl
    | none | list | range => cases h
  | eq | gt | gte | lt | lte | like | startsWith | endsWith =>
    cases operand with
    | value v => rfl
    | none | list | range => cases h

/-- A lone value comes back as a comparison for equality. -/
theorem HasLoneValue.clause?_eq (h : c.HasLoneValue) :
    ∃ v, c.operand = .value v ∧
      (FieldTest.ofCondition c).clause? c.key c.path = some (.test (.compare c.key c.path .eq v)) := by
  cases h with
  | isIn _ _ v | notIn _ _ v | between _ _ v => exact ⟨v, rfl, rfl⟩

/-- Of any other operand nothing comes back. -/
theorem clause?_eq_none (unfit : c.op.accepts c.operand = false) (h : ¬ c.HasLoneValue) :
    (FieldTest.ofCondition c).clause? c.key c.path = none := by
  obtain ⟨key, path, op, operand⟩ := c
  cases op with
  | isNull | isNotNull => cases unfit
  | isIn =>
    cases operand with
    | value v => exact absurd (.isIn key path v) h
    | list => cases unfit
    | none | range => rfl
  | notIn =>
    cases operand with
    | value v => exact absurd (.notIn key path v) h
    | list => cases unfit
    | none | range => rfl
  | between =>
    cases operand with
    | value v => exact absurd (.between key path v) h
    | range => cases unfit
    | none | list => rfl
  | eq | ne | gt | gte | lt | lte | like | startsWith | endsWith =>
    cases operand with
    | value => cases unfit
    | none | list | range => rfl

/-! ## Texts -/

/-- A text with a character before it is no other text that goes on with another character
than that. -/
theorem eq_of_cons_append_eq {a b : Char} {p x y : List Char}
    (h : a :: (p ++ x) = p ++ b :: y) : a = b := by
  induction p generalizing a with
  | nil => exact (List.cons.inj h).1
  | cons c p ih =>
    obtain ⟨rfl, rest⟩ := List.cons.inj h
    exact ih rest

/-- A comparison for equality is not written as a test of a list or a range on the same
path. -/
theorem HasLoneValue.soql_ne (h : c.HasLoneValue) (v : Value) :
    (Condition.compare c.key c.path .eq v).soql ≠ c.soql := by
  intro same
  have chars := congrArg String.toList same
  cases h with
  | isIn key path | notIn key path =>
    simp [soql, compare, Operand.listText] at chars
  | between key path w =>
    simp only [soql, compare, String.toList_append] at chars
    simp at chars
    exact absurd (eq_of_cons_append_eq chars.symm) (by decide)

end Condition

/-! ## Normalizing -/

theorem Filter.normalize_ofClause_test {m : Model} (policy : Policy) {c : Condition}
    (own : m.pathFor? c.key = some c.path) :
    (Filter.ofClause (.test c)).normalize m policy =
      .ok { clause := (FieldTest.ofCondition c).clause? c.key c.path, directives := [] } := by
  have declares : ∀ k ∈ (Filter.ofClause (.test c)).keys, m.declares k = true := by
    intro k listed
    rw [Filter.keys_ofClause, Clause.conditions, List.map_singleton, List.mem_singleton] at listed
    rw [listed, ← Bool.not_eq_false, ← Model.pathFor?_eq_none_iff, own]
    simp
  have directives : (Filter.ofClause (.test c)).directives m = [] := by
    rw [Filter.ofClause, Filter.directives, Filter.directives, Entry.directives_ofClause]
    rfl
  have kept : (Entry.ofClause (.test c)).kept? m =
      (FieldTest.ofCondition c).clause? c.key c.path := by
    rw [Entry.ofClause, Entry.kept?, own, Option.bind_some]
  rw [Filter.normalize_eq, Model.unlessRefused_of_declares declares, directives,
    Filter.kept_ofClause, kept]
  cases (FieldTest.ofCondition c).clause? c.key c.path <;> rfl

/-- A condition on a declared field, with any operator and any operand. The filter for it is
normalized, to a tree with the text of the condition if the operand has the shape that the
operator takes, and else to no tree. Only one value in place of a list or a range comes back
as its comparison for equality, with another text. -/
theorem Condition.soql_rebuilt (m : Model) (policy : Policy) (c : Condition)
    (own : m.pathFor? c.key = some c.path) :
    ∃ n, (Filter.ofClause (.test c)).normalize m policy = .ok n ∧
      (n.clause = none ∨ n.clause.map Clause.soql = some c.soql ↔ ¬ c.HasLoneValue) ∧
      (n.clause.map Clause.soql = some c.soql ↔ c.op.accepts c.operand = true) ∧
      (c.HasLoneValue → ∃ v, c.operand = .value v ∧
        n.clause = some (.test (.compare c.key c.path .eq v))) := by
  refine ⟨_, Filter.normalize_ofClause_test policy own, ?_⟩
  by_cases lone : c.HasLoneValue
  · obtain ⟨v, operand, rebuilt⟩ := lone.clause?_eq
    have other : (Clause.test (.compare c.key c.path .eq v)).soql ≠ c.soql := lone.soql_ne v
    rw [rebuilt, lone.accepts_eq_false]
    refine ⟨?_, ?_, fun _ => ⟨v, operand, rfl⟩⟩
    · simp [lone, other]
    · simp [other]
  · cases fits : c.op.accepts c.operand with
    | true =>
      have same := map_soql_clause?_of_accepts fits
      exact ⟨iff_of_true (.inr same) lone, iff_of_true same rfl, fun h => absurd h lone⟩
    | false =>
      rw [clause?_eq_none fits lone]
      refine ⟨iff_of_true (.inl rfl) lone, ?_, fun h => absurd h lone⟩
      simp

/-- A pattern that is an array: its elements are joined by commas. -/
def Condition.listed : Condition :=
  ⟨"owner", "Owner.Name", .like, .value (.array [.int 1, .text "it's"])⟩

theorem Condition.soql_rebuilt_listed :
    Model.deals.pathFor? listed.key = some listed.path ∧
      listed.op.accepts listed.operand = true ∧
      ∃ n, (Filter.ofClause (.test listed)).normalize .deals .reject = .ok n ∧
        n.clause.map Clause.soql = some listed.soql := by
  have fits : listed.op.accepts listed.operand = true := rfl
  obtain ⟨n, done, _, same, _⟩ := soql_rebuilt .deals .reject listed rfl
  exact ⟨rfl, fits, n, done, same.2 fits⟩

/-- Being no member of a list, for which one value is given. -/
def Condition.excluding : Condition :=
  ⟨"name", "Name", .notIn, .value (.text "Acme")⟩

/-- Being other than a value comes back as being that value. -/
theorem Condition.soql_rebuilt_ne_excluding :
    Model.deals.pathFor? excluding.key = some excluding.path ∧
      excluding.soql = "Name NOT IN ('Acme')" ∧
      ∃ t, (Filter.ofClause (.test excluding)).normalize .deals .reject =
          .ok { clause := some t, directives := [] } ∧
        t.soql = "Name = 'Acme'" :=
  ⟨rfl, by decide, _, rfl, by decide⟩

end FilterQuery

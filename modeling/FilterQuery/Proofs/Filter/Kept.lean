import FilterQuery.Filter.Normalized

/-!
# What normalization keeps

Normalization does two things at once: it refuses keys that the policy does not
admit, and it turns the rest of a filter into clauses. Here the two are taken
apart. Main statement: the outcome is the refusal of the first key that is not
admitted, in the order of a walk through the filter, and else the clauses that a
plain recursive function keeps.
-/

namespace FilterQuery

/-! ## The keys of a filter -/

mutual

/-- The keys that an entry tests, from left to right, at every depth. -/
@[simp] def Entry.keys : Entry → List String
  | .all filters => Filter.keysAll filters
  | .any filters => Filter.keysAll filters
  | .not filter => Filter.keys filter
  | .raw _ => []
  | .field key _ => [key]

/-- The keys that a filter tests. -/
def Filter.keys : Filter → List String
  | [] => []
  | e :: es => Entry.keys e ++ Filter.keys es

/-- The keys of filters that stand side by side. -/
def Filter.keysAll : List Filter → List String
  | [] => []
  | f :: fs => Filter.keys f ++ Filter.keysAll fs

end

/-! ## Refusal -/

namespace Model

/-- The refusal of the first key that the policy does not admit. -/
def refusal? (m : Model) (policy : Policy) (keys : List String) : Option UnknownField :=
  match policy with
  | .reject => (keys.find? fun k => !m.declares k).map fun k => ⟨m.name, k⟩
  | .ignore => none

/-- A result, unless one of the keys is refused. -/
def unlessRefused {α : Type} (m : Model) (policy : Policy) (keys : List String) (a : α) :
    Except UnknownField α :=
  match m.refusal? policy keys with
  | some e => .error e
  | none => .ok a

variable {m : Model} {policy : Policy} {keys : List String}

@[simp]
theorem refusal?_nil : m.refusal? policy [] = none := by
  cases policy <;> rfl

@[simp]
theorem refusal?_append (ks ls : List String) :
    m.refusal? policy (ks ++ ls) = (m.refusal? policy ks).or (m.refusal? policy ls) := by
  cases policy with
  | reject => simp [refusal?, Option.map_or]
  | ignore => rfl

theorem refusal?_of_declares (h : ∀ k ∈ keys, m.declares k = true) :
    m.refusal? policy keys = none := by
  cases policy with
  | reject =>
    simp only [refusal?, Option.map_eq_none_iff, List.find?_eq_none]
    intro k hk
    simp [h k hk]
  | ignore => rfl

theorem unlessRefused_of_declares {α : Type} {a : α} (h : ∀ k ∈ keys, m.declares k = true) :
    m.unlessRefused policy keys a = .ok a := by
  rw [unlessRefused, refusal?_of_declares h]

theorem eq_of_unlessRefused_eq_ok {α : Type} {a b : α}
    (h : m.unlessRefused policy keys a = .ok b) : a = b := by
  unfold unlessRefused at h
  split at h
  · cases h
  · exact Except.ok.inj h

@[simp]
theorem map_unlessRefused {α β : Type} (f : α → β) (a : α) :
    (m.unlessRefused policy keys a).map f = m.unlessRefused policy keys (f a) := by
  unfold unlessRefused
  split <;> rfl

/-- Of two computations that refuse keys, one after the other, the first refusal
wins. -/
theorem bind_unlessRefused {α β : Type} (ks ls : List String) (a : α) (b : α → β) :
    (m.unlessRefused policy ks a >>= fun x => m.unlessRefused policy ls (b x)) =
      m.unlessRefused policy (ks ++ ls) (b a) := by
  unfold unlessRefused
  rw [refusal?_append]
  cases m.refusal? policy ks <;> rfl

end Model

/-- A model of deals with a few fields. -/
def Model.deals : Model where
  name := "Deal"
  object := "Opportunity"
  provider := .salesforce
  fields := [⟨"id", "Id"⟩, ⟨"name", "Name"⟩, ⟨"amount", "Amount"⟩, ⟨"owner", "Owner.Name"⟩]
  distinct := by decide

/-! ## Clauses -/

mutual

/-- The clause of an entry after all keys that are not declared have been dropped. -/
@[simp] def Entry.kept? (m : Model) : Entry → Option Clause
  | .all filters => Clause.allOf? (Filter.keptAll m filters)
  | .any filters => Clause.anyOf? (Filter.keptAll m filters)
  | .not filter => (Clause.combine (Filter.kept m filter)).map .not
  | .raw fragment => some (.raw fragment)
  | .field key test => (m.pathFor? key).bind fun path => test.clause? key path

/-- The clauses of the entries of a filter. -/
def Filter.kept (m : Model) : Filter → List Clause
  | [] => []
  | e :: es => (Entry.kept? m e).toList ++ Filter.kept m es

/-- The clauses of filters that stand side by side. -/
def Filter.keptAll (m : Model) : List Filter → List Clause
  | [] => []
  | f :: fs => (Clause.combine (Filter.kept m f)).toList ++ Filter.keptAll m fs

end

@[simp, grind =]
theorem Filter.kept_eq_filterMap (m : Model) (f : Filter) :
    f.kept m = f.filterMap (Entry.kept? m) := by
  induction f with
  | nil => rfl
  | cons e es ih =>
    rw [Filter.kept, ih, List.filterMap_cons]
    cases e.kept? m <;> rfl

/-- The clause of a filter, if anything is left of it. -/
def Filter.kept? (m : Model) (f : Filter) : Option Clause :=
  Clause.combine (f.kept m)

@[simp, grind =]
theorem Filter.keptAll_eq_filterMap (m : Model) (fs : List Filter) :
    Filter.keptAll m fs = fs.filterMap (Filter.kept? m) := by
  induction fs with
  | nil => rfl
  | cons f fs ih =>
    rw [Filter.keptAll, ih, List.filterMap_cons, ← Filter.kept?]
    cases Filter.kept? m f <;> rfl

theorem Model.pathFor?_eq_none_iff {m : Model} {key : String} :
    m.pathFor? key = none ↔ m.declares key = false := by
  simp [Model.pathFor?, Model.declares]

mutual

/-- An entry is refused for the first of its keys that is not admitted, and else
gives the clause that is kept of it. -/
theorem Entry.clause?_eq (m : Model) (policy : Policy) :
    ∀ e : Entry, e.clause? m policy = m.unlessRefused policy e.keys (e.kept? m)
  | .all filters => by
      rw [Entry.clause?, Filter.clauses_eq m policy filters, Model.map_unlessRefused]
      rfl
  | .any filters => by
      rw [Entry.clause?, Filter.clauses_eq m policy filters, Model.map_unlessRefused]
      rfl
  | .not filter => by
      rw [Entry.clause?, Filter.entryClauses_eq m policy filter, Model.map_unlessRefused]
      rfl
  | .raw fragment => by
      rw [Entry.clause?, Model.unlessRefused, Entry.keys, Model.refusal?_nil]
      rfl
  | .field key test => by
      cases hp : m.pathFor? key with
      | some path =>
        have hd : m.declares key = true := by
          rw [← Bool.not_eq_false, ← Model.pathFor?_eq_none_iff, hp]
          simp
        rw [Entry.keys, Model.unlessRefused_of_declares (by simpa using hd)]
        simp [Entry.clause?, hp]
      | none =>
        have hd := Model.pathFor?_eq_none_iff.1 hp
        cases policy with
        | reject =>
          simp [Entry.clause?, Model.unlessRefused, Model.refusal?, hp, hd]
        | ignore =>
          simp [Entry.clause?, Model.unlessRefused, Model.refusal?, hp]

/-- `Entry.clause?_eq` for the entries of a filter, from left to right. -/
theorem Filter.entryClauses_eq (m : Model) (policy : Policy) :
    ∀ f : Filter, Filter.entryClauses m policy f = m.unlessRefused policy f.keys (f.kept m)
  | [] => by
      rw [Filter.entryClauses, Filter.keys, Model.unlessRefused, Model.refusal?_nil]
      rfl
  | e :: es => by
      rw [Filter.entryClauses, Entry.clause?_eq m policy e,
        Filter.entryClauses_eq m policy es]
      have rest : ∀ c : Option Clause,
          (m.unlessRefused policy (Filter.keys es) (Filter.kept m es) >>= fun cs =>
            (pure (c.toList ++ cs) : Except UnknownField (List Clause))) =
          m.unlessRefused policy (Filter.keys es) (c.toList ++ Filter.kept m es) :=
        fun c => Model.map_unlessRefused _ _
      simp only [rest]
      exact Model.bind_unlessRefused _ _ _ fun c : Option Clause => c.toList ++ Filter.kept m es

/-- `Filter.entryClauses_eq` for filters that stand side by side. -/
theorem Filter.clauses_eq (m : Model) (policy : Policy) :
    ∀ fs : List Filter,
      Filter.clauses m policy fs = m.unlessRefused policy (Filter.keysAll fs) (Filter.keptAll m fs)
  | [] => by
      rw [Filter.clauses, Filter.keysAll, Model.unlessRefused, Model.refusal?_nil]
      rfl
  | f :: fs => by
      rw [Filter.clauses, Filter.entryClauses_eq m policy f, Filter.clauses_eq m policy fs]
      have rest : ∀ es : List Clause,
          (m.unlessRefused policy (Filter.keysAll fs) (Filter.keptAll m fs) >>= fun cs =>
            (pure ((Clause.combine es).toList ++ cs) : Except UnknownField (List Clause))) =
          m.unlessRefused policy (Filter.keysAll fs)
            ((Clause.combine es).toList ++ Filter.keptAll m fs) :=
        fun es => Model.map_unlessRefused _ _
      simp only [rest]
      exact Model.bind_unlessRefused _ _ _ fun es : List Clause =>
        (Clause.combine es).toList ++ Filter.keptAll m fs

end

/-- Normalization refuses the first key that is not admitted, and else combines
the clauses that are kept. -/
theorem Filter.normalize_eq (m : Model) (policy : Policy) (f : Filter) :
    f.normalize m policy = m.unlessRefused policy f.keys
      { clause := Clause.combine (f.kept m), directives := f.directives m } := by
  rw [Filter.normalize, Filter.clause?, Filter.entryClauses_eq, Model.map_unlessRefused,
    Model.map_unlessRefused]

end FilterQuery

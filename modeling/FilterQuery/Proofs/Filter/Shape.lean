import FilterQuery.Proofs.Filter.Kept

/-!
# The shape of filters

Induction over an entry with one hypothesis for every entry of the filters that
it joins, and the recursive functions on filters as functions on lists of entries.
-/

namespace FilterQuery

/-- Induction over an entry: a combinator may use the statement of all the entries
right below it. -/
@[induction_eliminator]
theorem Entry.induction {P : Entry → Prop}
    (all : ∀ filters, (∀ f ∈ filters, ∀ e ∈ f, P e) → P (.all filters))
    (any : ∀ filters, (∀ f ∈ filters, ∀ e ∈ f, P e) → P (.any filters))
    (not : ∀ filter, (∀ e ∈ filter, P e) → P (.not filter))
    (raw : ∀ fragment, P (.raw fragment))
    (field : ∀ key test, P (.field key test)) (e : Entry) : P e :=
  @Entry.rec P (fun filters => ∀ f ∈ filters, ∀ e ∈ f, P e) (fun filter => ∀ e ∈ filter, P e)
    all any not raw field
    (by simp) (fun f fs hf hfs => by simpa using ⟨hf, hfs⟩)
    (by simp) (fun e es he hes => by simpa using ⟨he, hes⟩) e

namespace Filter

/-! ## Entries as lists -/

@[simp, grind =]
theorem keys_eq_flatMap (f : Filter) : f.keys = f.flatMap Entry.keys := by
  induction f with
  | nil => rfl
  | cons e es ih => rw [keys, ih, List.flatMap_cons]

@[simp, grind =]
theorem keysAll_eq_flatMap (fs : List Filter) : keysAll fs = fs.flatMap keys := by
  induction fs with
  | nil => rfl
  | cons f fs ih => rw [keysAll, ih, List.flatMap_cons]

variable {m : Model}

@[simp, grind =]
theorem directives_eq_flatMap (f : Filter) :
    f.directives m = f.flatMap (Entry.directives m) := by
  induction f with
  | nil => rfl
  | cons e es ih => rw [directives, ih, List.flatMap_cons]

@[simp, grind =]
theorem directivesAll_eq_flatMap (fs : List Filter) :
    directivesAll m fs = fs.flatMap (directives m) := by
  induction fs with
  | nil => rfl
  | cons f fs ih => rw [directivesAll, ih, List.flatMap_cons]

theorem kept_eq_flatMap (f : Filter) :
    f.kept m = f.flatMap fun e => (e.kept? m).toList := by
  induction f with
  | nil => rfl
  | cons e es ih => rw [kept, ih, List.flatMap_cons]

theorem keptAll_eq_flatMap (fs : List Filter) :
    keptAll m fs = fs.flatMap fun f => (kept? m f).toList := by
  induction fs with
  | nil => rfl
  | cons f fs ih => rw [keptAll, ih, List.flatMap_cons, kept?]

end Filter

end FilterQuery

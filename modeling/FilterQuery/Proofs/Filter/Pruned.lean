import FilterQuery.Proofs.Filter.Shape
import Mathlib.Data.List.Basic

/-!
# Pruned filters

A filter loses its tests of undeclared keys at every depth, while the filters
around them stay where they are, even if nothing is left in them. Main statement:
the lenient policy makes of a filter what the strict one makes of the pruned
filter, tree and directives, so that the two policies agree on every filter that
the strict one accepts.
-/

namespace FilterQuery

mutual

/-- An entry without its tests of undeclared keys, unless it is such a test. -/
@[simp] def Entry.pruned? (m : Model) : Entry → Option Entry
  | .all filters => some (.all (Filter.prunedAll m filters))
  | .any filters => some (.any (Filter.prunedAll m filters))
  | .not filter => some (.not (Filter.pruned m filter))
  | .raw fragment => some (.raw fragment)
  | .field key test => if m.declares key then some (.field key test) else none

/-- A filter without its tests of undeclared keys. -/
def Filter.pruned (m : Model) : Filter → Filter
  | [] => []
  | e :: es => (Entry.pruned? m e).toList ++ Filter.pruned m es

/-- Each filter without its tests of undeclared keys. No filter is lost. -/
def Filter.prunedAll (m : Model) : List Filter → List Filter
  | [] => []
  | f :: fs => Filter.pruned m f :: Filter.prunedAll m fs

end

variable {m : Model}

namespace Filter

@[simp, grind =]
theorem pruned_eq_flatMap (f : Filter) :
    f.pruned m = f.flatMap fun e => (e.pruned? m).toList := by
  induction f with
  | nil => rfl
  | cons e es ih => rw [pruned, ih, List.flatMap_cons]

@[simp, grind =]
theorem prunedAll_eq_map (fs : List Filter) : prunedAll m fs = fs.map (pruned m) := by
  induction fs with
  | nil => rfl
  | cons f fs ih => rw [prunedAll, ih, List.map_cons]

/-- What is gathered from the entries of the pruned filter is gathered from the
entries themselves, if that is so for each of them. -/
theorem flatMap_pruned {β : Type} {g h : Entry → List β} {f : Filter}
    (each : ∀ e ∈ f, (e.pruned? m).toList.flatMap g = h e) :
    (f.pruned m).flatMap g = f.flatMap h := by
  rw [pruned_eq_flatMap, List.flatMap_assoc]
  exact List.flatMap_congr each

theorem flatMap_prunedAll {β : Type} {g h : Filter → List β} {fs : List Filter}
    (each : ∀ f ∈ fs, g (f.pruned m) = h f) :
    (prunedAll m fs).flatMap g = fs.flatMap h := by
  rw [prunedAll_eq_map, List.flatMap_map]
  exact List.flatMap_congr each

end Filter

/-! ## The keys of a pruned filter -/

theorem Filter.keys_pruned_of_forall {f : Filter} (each : ∀ e ∈ f,
    (e.pruned? m).toList.flatMap Entry.keys = e.keys.filter m.declares) :
    (f.pruned m).keys = f.keys.filter m.declares := by
  rw [keys_eq_flatMap, flatMap_pruned each, keys_eq_flatMap, List.filter_flatMap]

theorem Filter.keysAll_prunedAll_of_forall {fs : List Filter} (each : ∀ f ∈ fs, ∀ e ∈ f,
    (e.pruned? m).toList.flatMap Entry.keys = e.keys.filter m.declares) :
    keysAll (prunedAll m fs) = (keysAll fs).filter m.declares := by
  rw [keysAll_eq_flatMap, flatMap_prunedAll fun f hf => keys_pruned_of_forall (each f hf),
    keysAll_eq_flatMap, List.filter_flatMap]

@[simp]
theorem Entry.keys_pruned? (e : Entry) :
    (e.pruned? m).toList.flatMap Entry.keys = e.keys.filter m.declares := by
  induction e with
  | all filters ih | any filters ih =>
    simp only [pruned?, Option.toList_some, List.flatMap_singleton, keys]
    exact Filter.keysAll_prunedAll_of_forall ih
  | not filter ih =>
    simp only [pruned?, Option.toList_some, List.flatMap_singleton, keys]
    exact Filter.keys_pruned_of_forall ih
  | raw fragment => rfl
  | field key test =>
    cases hd : m.declares key <;> simp [hd]

/-- The keys of a pruned filter are the declared keys of the filter. -/
theorem Filter.keys_pruned (f : Filter) : (f.pruned m).keys = f.keys.filter m.declares :=
  keys_pruned_of_forall fun e _ => e.keys_pruned?

/-! ## What is kept of a pruned filter -/

theorem Filter.kept_pruned_of_forall {f : Filter} (each : ∀ e ∈ f,
    ((e.pruned? m).toList.flatMap fun e => (e.kept? m).toList) = (e.kept? m).toList) :
    (f.pruned m).kept m = f.kept m := by
  rw [kept_eq_flatMap, flatMap_pruned each, kept_eq_flatMap]

theorem Filter.keptAll_prunedAll_of_forall {fs : List Filter} (each : ∀ f ∈ fs, ∀ e ∈ f,
    ((e.pruned? m).toList.flatMap fun e => (e.kept? m).toList) = (e.kept? m).toList) :
    keptAll m (prunedAll m fs) = keptAll m fs := by
  rw [keptAll_eq_flatMap, flatMap_prunedAll, keptAll_eq_flatMap]
  intro f hf
  rw [kept?, kept_pruned_of_forall (each f hf), kept?]

/-- Of an entry as much is kept after its pruning as before. -/
@[simp]
theorem Entry.kept?_pruned? (e : Entry) :
    ((e.pruned? m).toList.flatMap fun e => (e.kept? m).toList) = (e.kept? m).toList := by
  induction e with
  | all filters ih | any filters ih =>
    simp only [pruned?, Option.toList_some, List.flatMap_singleton, kept?,
      Filter.keptAll_prunedAll_of_forall ih]
  | not filter ih =>
    simp only [pruned?, Option.toList_some, List.flatMap_singleton, kept?,
      Filter.kept_pruned_of_forall ih]
  | raw fragment => rfl
  | field key test =>
    cases hd : m.declares key with
    | true => simp [pruned?, hd]
    | false => simp [Model.pathFor?_eq_none_iff.2 hd]

theorem Filter.kept_pruned (f : Filter) : (f.pruned m).kept m = f.kept m :=
  kept_pruned_of_forall fun e _ => e.kept?_pruned?

/-! ## The directives of a pruned filter -/

theorem Filter.directives_pruned_of_forall {f : Filter} (each : ∀ e ∈ f,
    (e.pruned? m).toList.flatMap (Entry.directives m) = e.directives m) :
    (f.pruned m).directives m = f.directives m := by
  rw [directives_eq_flatMap, flatMap_pruned each, directives_eq_flatMap]

theorem Filter.directivesAll_prunedAll_of_forall {fs : List Filter} (each : ∀ f ∈ fs, ∀ e ∈ f,
    (e.pruned? m).toList.flatMap (Entry.directives m) = e.directives m) :
    directivesAll m (prunedAll m fs) = directivesAll m fs := by
  rw [directivesAll_eq_flatMap,
    flatMap_prunedAll fun f hf => directives_pruned_of_forall (each f hf),
    directivesAll_eq_flatMap]

/-- An entry has the same directives after its pruning as before. -/
@[simp]
theorem Entry.directives_pruned? (e : Entry) :
    (e.pruned? m).toList.flatMap (Entry.directives m) = e.directives m := by
  induction e with
  | all filters ih | any filters ih =>
    simp only [pruned?, Option.toList_some, List.flatMap_singleton, directives,
      Filter.directivesAll_prunedAll_of_forall ih]
  | not filter ih =>
    simp only [pruned?, Option.toList_some, List.flatMap_singleton, directives,
      Filter.directives_pruned_of_forall ih]
  | raw fragment => rfl
  | field key test =>
    cases hd : m.declares key with
    | true => simp [pruned?, hd]
    | false => simp [Model.pathFor?_eq_none_iff.2 hd]

theorem Filter.directives_pruned (f : Filter) : (f.pruned m).directives m = f.directives m :=
  directives_pruned_of_forall fun e _ => e.directives_pruned?

/-! ## The two policies -/

/-- The strict policy accepts every pruned filter, and normalizes it as far as the
model declares its keys. -/
theorem Filter.normalize_reject_pruned (f : Filter) :
    (f.pruned m).normalize m .reject =
      .ok { clause := Clause.combine (f.kept m), directives := f.directives m } := by
  have declared : ∀ k ∈ (f.pruned m).keys, m.declares k = true := by
    intro k hk
    rw [keys_pruned] at hk
    exact (List.mem_filter.1 hk).2
  rw [normalize_eq, Model.unlessRefused_of_declares declared, kept_pruned, directives_pruned]

/-- The lenient policy normalizes every filter, to what the strict one makes of the
pruned filter, and it agrees with the strict one on what that accepts. -/
theorem Filter.normalize_ignore_eq_normalize_reject_pruned (m : Model) (f : Filter) :
    (∃ n, f.normalize m .ignore = .ok n ∧ (f.pruned m).normalize m .reject = .ok n) ∧
      ∀ n, f.normalize m .reject = .ok n → f.normalize m .ignore = .ok n := by
  have lenient : f.normalize m .ignore =
      .ok { clause := Clause.combine (f.kept m), directives := f.directives m } :=
    normalize_eq m .ignore f
  refine ⟨⟨_, lenient, f.normalize_reject_pruned⟩, ?_⟩
  intro n hn
  rw [normalize_eq] at hn
  rw [lenient, Model.eq_of_unlessRefused_eq_ok hn]

/-- A filter with undeclared keys at several depths, and chunkings on declared and on
undeclared ones. -/
def Filter.strewn : Filter :=
  [.field "stage" .null,
    .any [[.field "stage" (.ops [.isIn { values := [.text "Won"], chunking := some {} }])],
      [.field "id" (.ops [.isIn { values := [.text "1"], chunking := some {} }]),
        .not [.field "closed" .null]]],
    .not [.field "closed" .null, .field "name" (.value (.text "Acme"))]]

theorem Filter.normalize_ignore_eq_normalize_reject_pruned_strewn :
    strewn.normalize .deals .reject = .error ⟨"Deal", "stage"⟩ ∧
      ∃ n, strewn.normalize .deals .ignore = .ok n ∧
        (strewn.pruned .deals).normalize .deals .reject = .ok n ∧
        (strewn.pruned .deals).normalize .deals .ignore = .ok n ∧
        n.directives = [⟨"Id", false, [.text "1"], {}⟩] := by
  obtain ⟨⟨n, lenient, strict⟩, _⟩ := normalize_ignore_eq_normalize_reject_pruned .deals strewn
  obtain ⟨_, agree⟩ := normalize_ignore_eq_normalize_reject_pruned .deals (strewn.pruned .deals)
  refine ⟨rfl, n, lenient, strict, agree n strict, ?_⟩
  cases lenient
  rfl

end FilterQuery

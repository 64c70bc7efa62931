import FilterQuery.Proofs.Clause.Shape
import FilterQuery.Proofs.Filter.Shape
import FilterQuery.Proofs.Query.Keys

/-!
# The wording of filters

What a query on a model takes from a filter: the keys that it tests, the text of the clause
that is kept of it, and its chunk directives. Different filters may have one wording, and a
clause is lost in it. Main statements: the wording of a filter is determined by those of its
parts, and queries that differ in the filter only, with one wording, are refused for the same
key or built with the same text.
-/

namespace FilterQuery

/-- What a query takes from a filter, or from a part of it. -/
structure Wording where
  keys : List String
  text : Option String
  directives : List Directive

/-- The wording of a part with the clause `c`. -/
def Wording.ofClause (keys : List String) (c : Option Clause) (directives : List Directive) :
    Wording :=
  ⟨keys, c.map Clause.soql, directives⟩

theorem Wording.ofClause_eq_iff {ks ls : List String} {c d : Option Clause}
    {ds es : List Directive} : ofClause ks c ds = ofClause ls d es ↔
      ks = ls ∧ c.map Clause.soql = d.map Clause.soql ∧ ds = es := by
  rw [ofClause, ofClause, mk.injEq]

def Entry.wording (m : Model) (e : Entry) : Wording :=
  .ofClause e.keys (e.kept? m) (e.directives m)

def Filter.wording (m : Model) (f : Filter) : Wording :=
  .ofClause f.keys (f.kept? m) (f.directives m)

variable {m : Model}

/-! ## Joined clauses -/

namespace Clause

/-- A way to join clauses whose text takes nothing but the texts from them. -/
def JoinsTexts (join : List Clause → Option Clause) : Prop :=
  ∀ cs ds : List Clause, cs.map soql = ds.map soql → (join cs).map soql = (join ds).map soql

theorem joined_congr (j : Junction) {cs ds : List Clause} (same : cs.map soql = ds.map soql) :
    joined j (soqls cs) = joined j (soqls ds) := by
  rw [soqls_eq_map, soqls_eq_map, same]

theorem joinsTexts_of_cons {make : List Clause → Clause} {join : List Clause → Option Clause}
    (cons : ∀ c cs, join (c :: cs) = some (make (c :: cs)))
    (congr : ∀ cs ds : List Clause, cs.map soql = ds.map soql → (make cs).soql = (make ds).soql) :
    JoinsTexts join := by
  intro cs ds same
  match cs, ds with
  | [], [] => rfl
  | c :: cs, d :: ds =>
    rw [cons, cons]
    exact congrArg some (congr _ _ same)

theorem joinsTexts_allOf? : JoinsTexts allOf? :=
  joinsTexts_of_cons (fun _ _ => rfl) fun _ _ => joined_congr .conjunction

theorem joinsTexts_anyOf? : JoinsTexts anyOf? :=
  joinsTexts_of_cons (fun _ _ => rfl) fun _ _ => joined_congr .disjunction

theorem joinsTexts_combine : JoinsTexts combine := by
  intro cs ds same
  match cs, ds with
  | [], [] => rfl
  -- a clause that stands alone is not put between parentheses
  | [_], [_] => exact congrArg some (List.cons.inj same).1
  | _ :: _ :: _, _ :: _ :: _ => exact congrArg some (joined_congr .conjunction same)
  | [_], _ :: _ :: _ | _ :: _ :: _, [_] => simp at same

end Clause

/-! ## Wordings of parts -/

/-- Joined parts have one wording, if the parts have the same ones. -/
theorem Wording.join_congr {α : Type} {keys : α → List String} {kept : α → Option Clause}
    {directives : α → List Directive} {join : List Clause → Option Clause}
    (joins : Clause.JoinsTexts join) {ps qs : List α}
    (same : (ps.map fun p => Wording.ofClause (keys p) (kept p) (directives p)) =
      qs.map fun q => Wording.ofClause (keys q) (kept q) (directives q)) :
    Wording.ofClause (ps.flatMap keys) (join (ps.filterMap kept)) (ps.flatMap directives) =
      Wording.ofClause (qs.flatMap keys) (join (qs.filterMap kept)) (qs.flatMap directives) := by
  have keys_same := congrArg (List.flatMap Wording.keys) same
  have texts_same := congrArg (List.filterMap Wording.text) same
  have directives_same := congrArg (List.flatMap Wording.directives) same
  simp only [List.flatMap_map, List.filterMap_map] at keys_same texts_same directives_same
  have texts : ∀ as : List α, (as.filterMap kept).map Clause.soql =
      as.filterMap (Wording.text ∘ fun p => .ofClause (keys p) (kept p) (directives p)) := by
    intro as
    rw [List.map_filterMap]
    rfl
  exact ofClause_eq_iff.2
    ⟨keys_same, joins _ _ (by rw [texts, texts, texts_same]), directives_same⟩

theorem Filter.wording_congr {f g : Filter}
    (same : f.map (Entry.wording m) = g.map (Entry.wording m)) : f.wording m = g.wording m := by
  rw [wording, wording, kept?, kept?, keys_eq_flatMap, keys_eq_flatMap, kept_eq_filterMap,
    kept_eq_filterMap, directives_eq_flatMap, directives_eq_flatMap]
  exact Wording.join_congr Clause.joinsTexts_combine same

/-- Filters joined to an entry. -/
theorem Entry.wording_congr_of_filters {make : List Filter → Entry}
    {join : List Clause → Option Clause} (joins : Clause.JoinsTexts join)
    (keys : ∀ fs, (make fs).keys = Filter.keysAll fs)
    (kept : ∀ fs, (make fs).kept? m = join (Filter.keptAll m fs))
    (directives : ∀ fs, (make fs).directives m = Filter.directivesAll m fs) {fs gs : List Filter}
    (same : fs.map (Filter.wording m) = gs.map (Filter.wording m)) :
    (make fs).wording m = (make gs).wording m := by
  rw [wording, wording, keys, keys, kept, kept, directives, directives,
    Filter.keysAll_eq_flatMap, Filter.keysAll_eq_flatMap, Filter.keptAll_eq_filterMap,
    Filter.keptAll_eq_filterMap, Filter.directivesAll_eq_flatMap, Filter.directivesAll_eq_flatMap]
  exact Wording.join_congr joins same

theorem Entry.wording_all_congr {fs gs : List Filter}
    (same : fs.map (Filter.wording m) = gs.map (Filter.wording m)) :
    (Entry.all fs).wording m = (Entry.all gs).wording m :=
  wording_congr_of_filters Clause.joinsTexts_allOf? (fun _ => rfl) (fun _ => rfl)
    (fun _ => rfl) same

theorem Entry.wording_any_congr {fs gs : List Filter}
    (same : fs.map (Filter.wording m) = gs.map (Filter.wording m)) :
    (Entry.any fs).wording m = (Entry.any gs).wording m :=
  wording_congr_of_filters Clause.joinsTexts_anyOf? (fun _ => rfl) (fun _ => rfl)
    (fun _ => rfl) same

theorem Entry.wording_not_congr {f g : Filter} (same : f.wording m = g.wording m) :
    (Entry.not f).wording m = (Entry.not g).wording m := by
  obtain ⟨keys, text, directives⟩ := Wording.ofClause_eq_iff.1 same
  have negated : ∀ c : Option Clause, (c.map .not).map Clause.soql =
      (c.map Clause.soql).map fun t => "(NOT " ++ t ++ ")" := by
    intro c
    rw [Option.map_map, Option.map_map]
    rfl
  refine Wording.ofClause_eq_iff.2 ⟨keys, ?_, directives⟩
  rw [kept?, kept?, ← Filter.kept?, ← Filter.kept?, negated, negated, text]

/-! ## Queries -/

/-- The text of a condition tree, and the directives beside it. -/
def Normalized.wording (n : Normalized) : Option String × List Directive :=
  (n.clause.map Clause.soql, n.directives)

/-- Two filters with one wording are normalized alike, or refused for the same key. -/
theorem Filter.map_normalize_of_wording {f g : Filter} (policy : Policy)
    (same : f.wording m = g.wording m) :
    (f.normalize m policy).map Normalized.wording =
      (g.normalize m policy).map Normalized.wording := by
  obtain ⟨keys, text, directives⟩ := Wording.ofClause_eq_iff.1 same
  rw [normalize_eq, normalize_eq, Model.map_unlessRefused, Model.map_unlessRefused]
  rw [kept?, kept?] at text
  rw [keys, Normalized.wording, Normalized.wording, text, directives]

/-- The text of a descriptor takes nothing but its text from the clause. -/
theorem Select.soql_congr (s : Select) {c d : Option Clause}
    (same : c.map Clause.soql = d.map Clause.soql) :
    { s with filter := c }.soql = { s with filter := d }.soql := by
  have text : { s with filter := c }.whereText = { s with filter := d }.whereText := by
    match c, d with
    | none, none => rfl
    | some _, some _ => exact congrArg (" WHERE " ++ ·) (Option.some.inj same)
  simp only [soql, text]
  rfl

theorem Query.map_soql_build_of_wording (q : Query) {f g : Filter}
    (same : f.wording q.model = g.wording q.model) :
    (q.matching f).build.map Select.soql = (q.matching g).build.map Select.soql := by
  obtain ⟨keys, text, -⟩ := Wording.ofClause_eq_iff.1 same
  have text : (q.matching f).descriptor.soql = (q.matching g).descriptor.soql :=
    q.descriptor.soql_congr text
  simp only [build_eq, Model.map_unlessRefused, model_matching, policy_matching, keys_matching,
    keys, text]

end FilterQuery

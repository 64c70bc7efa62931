import FilterQuery.Proofs.Clause.Shape
import FilterQuery.Proofs.Document.Differing
import FilterQuery.Proofs.Document.Extension

/-!
# Queries with one difference

What becomes of two filter documents that are the same but for one number, on their way to
the text of a query. Main statement: either both are read or neither, and the texts of the
queries have one difference, which is the text of the number. Only where parts are left out,
because the policy says so, the difference may be left out with them.
-/

namespace FilterQuery

variable {x y : Number} {a b : String} {policy : Policy} {m : Model}

/-! ## Tests of fields -/

/-- Two clauses with one difference in their texts. -/
def Clause.Differ (a b : String) (c d : Clause) : Prop :=
  TextsDiffer a b c.soql d.soql

/-- What is kept of two parts: the same where the difference may be lost, or clauses with one
difference. -/
def Clause.PartsDiffer (lost : Prop) (a b : String) (c d : Option Clause) : Prop :=
  lost ∧ c = d ∨ ∃ c' d', c = some c' ∧ d = some d' ∧ Clause.Differ a b c' d'

theorem Clause.PartsDiffer.imp {lost lost' : Prop} {c d : Option Clause} (h : lost → lost')
    (differ : PartsDiffer lost a b c d) : PartsDiffer lost' a b c d :=
  Or.imp_left (And.imp_left h) differ

/-- Clauses with one difference give a conjunction or disjunction with one difference. -/
theorem Clause.differ_joined {cs ds : List Clause} (h : ListsDiffer (Clause.Differ a b) cs ds) :
    Clause.Differ a b (.all cs) (.all ds) ∧ Clause.Differ a b (.any cs) (.any ds) := by
  have joined (j : Junction) : TextsDiffer a b (Clause.joined j (soqls cs))
      (Clause.joined j (soqls ds)) := by
    rw [soqls_eq_map, soqls_eq_map]
    exact .append_right _ (.append_left _ (.intercalate _ (h.map fun _ _ => id)))
  exact ⟨joined .conjunction, joined .disjunction⟩

/-- A way to join clauses that keeps a difference. -/
def Clause.Joins (join : List Clause → Option Clause) : Prop :=
  ∀ a b cs ds, ListsDiffer (Clause.Differ a b) cs ds →
    ∃ c d, join cs = some c ∧ join ds = some d ∧ Clause.Differ a b c d

theorem Clause.joins_of_cons {make : List Clause → Clause} {join : List Clause → Option Clause}
    (cons : ∀ c cs, join (c :: cs) = some (make (c :: cs)))
    (keeps : ∀ a b cs ds, ListsDiffer (Clause.Differ a b) cs ds →
      Clause.Differ a b (make cs) (make ds)) : Clause.Joins join := by
  rintro a b cs ds differ
  have joined := keeps a b cs ds differ
  obtain ⟨before, c, d, after, rfl, rfl, -⟩ := differ
  cases before <;> exact ⟨_, _, cons _ _, cons _ _, joined⟩

theorem Clause.joins_allOf? : Clause.Joins allOf? :=
  joins_of_cons (fun _ _ => rfl) fun _ _ _ _ differ => (differ_joined differ).1

theorem Clause.joins_anyOf? : Clause.Joins anyOf? :=
  joins_of_cons (fun _ _ => rfl) fun _ _ _ _ differ => (differ_joined differ).2

theorem Clause.joins_combine : Clause.Joins combine := by
  rintro a b cs ds differ
  have joined := (Clause.differ_joined differ).1
  obtain ⟨before, c, d, after, rfl, rfl, single⟩ := differ
  match before, after with
  | [], [] => exact ⟨c, d, rfl, rfl, single⟩
  | [], _ :: _ | [_], _ | _ :: _ :: _, _ => exact ⟨_, _, rfl, rfl, joined⟩

/-- The clause of a single test has the difference of the test, or the tests are the same. -/
theorem FieldTest.alike_ofJson_operators (policy : Policy) (key : String) {ms ns : Members}
    (h : Alike (policy.PartsDiffer (FieldOp.Differ a b)) (FieldOp.ofMembers policy key ms)
      (FieldOp.ofMembers policy key ns)) :
    Alike (fun t u => ∀ path, Clause.PartsDiffer (policy = .ignore) a b (t.clause? key path)
        (u.clause? key path))
      (FieldTest.ofJson policy key (.object ms)) (FieldTest.ofJson policy key (.object ns)) := by
  refine h.map fun os ps parts path => ?_
  rcases parts with ⟨lenient, rfl⟩ | differ
  · exact .inl ⟨lenient, rfl⟩
  · exact .inr (Clause.joins_combine a b _ _ (differ.map fun _ _ h => h.soql key path))

theorem FieldTest.alike_ofJson_literal (policy : Policy) (key : String) {v w : Json}
    (h : Json.LiteralsDiffer x y v w) :
    Alike (fun t u => ∀ path, Clause.PartsDiffer (policy = .ignore) x.literal y.literal
        (t.clause? key path) (u.clause? key path))
      (FieldTest.ofJson policy key v) (FieldTest.ofJson policy key w) := by
  have literal : Alike (fun t u => ∀ path, Clause.PartsDiffer (policy = .ignore) x.literal y.literal
        (FieldTest.clause? key path t) (FieldTest.clause? key path u))
      ((Value.ofJson v).map .value) ((Value.ofJson w).map .value) :=
    (Value.alike_ofJson h).map fun _ _ differ path =>
      .inr ⟨_, _, rfl, rfl, differ.written.append_left _⟩
  cases h with
  | here | item => exact literal

/-! ## Documents -/

/-- Two documents that are the same but for one number. It stands in the literal that a field is
compared with, in the operand of an operator, or in such a place of a filter below a
combinator. A chunking is beside the query, and no operator. -/
inductive Json.FiltersDiffer (x y : Number) : Json → Json → Prop
  | literal (before after : Members) {key v w} (plain : key.toList.head? ≠ some '$')
      (differ : LiteralsDiffer x y v w) :
      FiltersDiffer x y (.object (before ++ (key, v) :: after))
        (.object (before ++ (key, w) :: after))
  | operand (before after : Members) {key} (plain : key.toList.head? ≠ some '$')
      (ops ops' : Members) {op v w} (unchunked : op ≠ "$chunk")
      (differ : LiteralsDiffer x y v w) :
      FiltersDiffer x y
        (.object (before ++ (key, .object (ops ++ (op, v) :: ops')) :: after))
        (.object (before ++ (key, .object (ops ++ (op, w) :: ops')) :: after))
  | joined (before after : Members) {name} (named : name = "$and" ∨ name = "$or")
      (items items' : List Json) {v w} (inner : FiltersDiffer x y v w) :
      FiltersDiffer x y
        (.object (before ++ (name, .array (items ++ v :: items')) :: after))
        (.object (before ++ (name, .array (items ++ w :: items')) :: after))
  | not (before after : Members) {v w} (inner : FiltersDiffer x y v w) :
      FiltersDiffer x y (.object (before ++ ("$not", v) :: after))
        (.object (before ++ ("$not", w) :: after))

/-- What a filter on these keys may lose: what the lenient policy leaves out, and what the model
does not declare. -/
def Model.Omits (m : Model) (policy : Policy) (keys : List String) : Prop :=
  policy = .ignore ∨ ∃ k ∈ keys, m.declares k = false

/-- What matters of two parts of a filter for the query: they test the same keys, and what is
kept of them is the same where that may be lost, or has one difference. -/
structure KeptDiffer (m : Model) (policy : Policy) (a b : String) (ks ls : List String)
    (c d : Option Clause) : Prop where
  keys : ks = ls
  clauses : Clause.PartsDiffer (m.Omits policy ks) a b c d

/-- Parts with one difference, joined. -/
theorem KeptDiffer.join {α : Type} {keys : α → List String} {kept : α → Option Clause}
    {join : List Clause → Option Clause} (joins : Clause.Joins join) {ps qs : List α}
    (h : policy.PartsDiffer
      (fun p q => KeptDiffer m policy a b (keys p) (keys q) (kept p) (kept q)) ps qs) :
    KeptDiffer m policy a b (ps.flatMap keys) (qs.flatMap keys) (join (ps.filterMap kept))
      (join (qs.filterMap kept)) := by
  rcases h with ⟨lenient, rfl⟩ | ⟨before, p, q, after, rfl, rfl, differ⟩
  · exact ⟨rfl, .inl ⟨.inl lenient, rfl⟩⟩
  · refine ⟨by simp [differ.keys], ?_⟩
    rw [List.filterMap_append, List.filterMap_append, List.filterMap_cons, List.filterMap_cons]
    rcases differ.clauses with ⟨omits, same⟩ | ⟨c, d, hc, hd, texts⟩
    · refine .inl ⟨omits.imp_right ?_, by rw [same]⟩
      rintro ⟨k, hk, undeclared⟩
      exact ⟨k, by simp [hk], undeclared⟩
    · rw [hc, hd]
      exact .inr (joins a b _ _ (.intro _ _ texts))

/-- Two filters with one difference. -/
def Filter.Differ (m : Model) (policy : Policy) (a b : String) (f g : Filter) : Prop :=
  KeptDiffer m policy a b f.keys g.keys (f.kept? m) (g.kept? m)

/-- Two entries with one difference. -/
def Entry.Differ (m : Model) (policy : Policy) (a b : String) (e f : Entry) : Prop :=
  KeptDiffer m policy a b e.keys f.keys (e.kept? m) (f.kept? m)

theorem Filter.differ_of_parts (f g : Filter)
    (h : policy.PartsDiffer (Entry.Differ m policy a b) f g) :
    Filter.Differ m policy a b f g := by
  rw [Filter.Differ, keys_eq_flatMap, keys_eq_flatMap, kept?, kept?, kept_eq_filterMap,
    kept_eq_filterMap]
  exact .join Clause.joins_combine h

theorem Entry.differ_field {key : String} {t u : FieldTest}
    (h : ∀ path, Clause.PartsDiffer (policy = .ignore) a b (t.clause? key path)
      (u.clause? key path)) :
    Entry.Differ m policy a b (.field key t) (.field key u) := by
  refine ⟨rfl, ?_⟩
  rw [kept?, kept?]
  cases hp : m.pathFor? key with
  | some path => exact (h path).imp .inl
  | none =>
    have undeclared := Model.pathFor?_eq_none_iff.1 hp
    exact .inl ⟨.inr ⟨key, by simp [keys], undeclared⟩, rfl⟩

/-- Filters with one difference, joined to an entry. -/
theorem Entry.differ_of_filters {make : List Filter → Entry}
    {join : List Clause → Option Clause} (joins : Clause.Joins join)
    (keys : ∀ fs, (make fs).keys = Filter.keysAll fs)
    (kept : ∀ fs, (make fs).kept? m = join (Filter.keptAll m fs)) {fs gs : List Filter}
    (h : policy.PartsDiffer (Filter.Differ m policy a b) fs gs) :
    Entry.Differ m policy a b (make fs) (make gs) := by
  rw [Entry.Differ, keys, keys, kept, kept, Filter.keysAll_eq_flatMap, Filter.keysAll_eq_flatMap,
    Filter.keptAll_eq_filterMap, Filter.keptAll_eq_filterMap]
  exact .join joins h

theorem Entry.differ_not {f g : Filter} (h : Filter.Differ m policy a b f g) :
    Entry.Differ m policy a b (.not f) (.not g) := by
  refine ⟨h.keys, ?_⟩
  rw [kept?, kept?, ← Filter.kept?, ← Filter.kept?]
  rcases h.clauses with ⟨omits, same⟩ | ⟨c, d, hc, hd, texts⟩
  · exact .inl ⟨omits, by rw [same]⟩
  · rw [hc, hd]
    exact .inr ⟨_, _, rfl, rfl, .append_right _ (.append_left _ texts)⟩

/-- Two documents with one difference are read alike. -/
theorem Filter.alike_ofJson (m : Model) (policy : Policy) {v w : Json}
    (h : Json.FiltersDiffer x y v w) :
    Alike (Filter.Differ m policy x.literal y.literal) (Filter.ofJson policy v)
      (Filter.ofJson policy w) := by
  induction h with
  | literal before after plain differ =>
    refine alike_ofJson_object policy differ_of_parts before after ?_
    rw [Entry.ofMember_field plain, Entry.ofMember_field plain]
    exact (FieldTest.alike_ofJson_literal policy _ differ).map fun _ _ => Entry.differ_field
  | operand before after plain ops ops' unchunked differ =>
    refine alike_ofJson_object policy differ_of_parts before after ?_
    rw [Entry.ofMember_field plain, Entry.ofMember_field plain]
    exact (FieldTest.alike_ofJson_operators policy _
      (FieldOp.alike_ofMembers policy _ ops ops' unchunked differ)).map fun _ _ =>
        Entry.differ_field
  | joined before after named items items' inner ih =>
    refine alike_ofJson_object policy differ_of_parts before after ?_
    rcases named with rfl | rfl
    · exact Entry.alike_ofJunction policy .all "$and" (fun _ _ =>
        Entry.differ_of_filters Clause.joins_allOf? (fun _ => rfl) fun _ => rfl) items items' ih
    · exact Entry.alike_ofJunction policy .any "$or" (fun _ _ =>
        Entry.differ_of_filters Clause.joins_anyOf? (fun _ => rfl) fun _ => rfl) items items' ih
  | not before after inner ih =>
    exact alike_ofJson_object policy differ_of_parts before after
      (ih.map fun _ _ => Entry.differ_not)

theorem Filter.exists_parse_ok_iff (policy : Policy) {v w : Json}
    (h : Json.FiltersDiffer x y v w) :
    (∃ f, Filter.parse policy v = .ok f) ↔ ∃ g, Filter.parse policy w = .ok g := by
  simp only [Filter.parse_eq_ok_iff]
  exact (Filter.alike_ofJson .deals policy h).exists_ok_iff

/-! ## Queries -/

theorem Select.soql_differ {s : Select} {c d : Clause} (h : Clause.Differ a b c d) :
    TextsDiffer a b { s with filter := some c }.soql { s with filter := some d }.soql :=
  .append_right _ (.append_right _ (.append_right _ (.append_left _ (h.append_left _))))

/-- The texts of queries whose filters are read from two documents with one difference. -/
theorem Query.soql_differ {q : Query} {v w : Json} (h : Json.FiltersDiffer x y v w)
    {f g : Filter} (hf : Filter.parse policy v = .ok f) (hg : Filter.parse policy w = .ok g)
    {s t : Select} (hs : (q.matching f).build = .ok s) (ht : (q.matching g).build = .ok t) :
    (policy = .ignore ∨ q.policy = .ignore) ∧ s.soql = t.soql ∨
      TextsDiffer x.literal y.literal s.soql t.soql := by
  have alike := Filter.alike_ofJson q.model policy h
  rw [Filter.parse_eq_ok_iff.1 hf, Filter.parse_eq_ok_iff.1 hg] at alike
  rw [build_eq] at hs ht
  have lenient (omits : q.model.Omits policy f.keys) : policy = .ignore ∨ q.policy = .ignore := by
    refine omits.imp_right ?_
    rintro ⟨k, hk, undeclared⟩
    cases hp : q.policy with
    | ignore => rfl
    | reject =>
      rw [policy_matching, hp] at hs
      have declared := (Model.unlessRefused_reject_eq_ok_iff.1 hs).1 k (by grind)
      rw [model_matching, undeclared] at declared
      cases declared
  obtain rfl := Model.eq_of_unlessRefused_eq_ok hs
  obtain rfl := Model.eq_of_unlessRefused_eq_ok ht
  rw [descriptor_matching, descriptor_matching]
  rcases alike.clauses with ⟨omits, same⟩ | ⟨c, d, hc, hd, texts⟩
  · exact .inl ⟨lenient omits, by rw [same]⟩
  · rw [hc, hd]
    exact .inr (Select.soql_differ texts)

end FilterQuery

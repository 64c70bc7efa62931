import FilterQuery.Proofs.Filter.Canonical
import FilterQuery.Query.Basic
import FilterQuery.Select.Soql

/-!
# The keys of a query

Building a query refuses the first of its keys that the policy does not admit, and
gives the descriptor otherwise. Main statement: under the strict policy a query is
built just if the model declares every key that it mentions, the refusal names the
first key that it does not, and a descriptor that is built is written with declared
paths only.
-/

namespace FilterQuery

namespace Model

variable {m : Model} {keys : List String}

theorem mem_keys_iff {key : String} : key ∈ m.keys ↔ m.declares key = true := by
  simp [Model.keys, Model.declares, Model.field?]

/-- A declared key never stands for itself. -/
theorem pathFor?_eq_some_pathFor {key : String} (h : m.declares key = true) :
    m.pathFor? key = some (m.pathFor key) := by
  cases hp : m.pathFor? key with
  | some path => rw [pathFor, hp, Option.getD_some]
  | none => simp [pathFor?_eq_none_iff.1 hp] at h

theorem find?_undeclared_eq_some_iff {k : String} :
    (keys.find? fun k => !m.declares k) = some k ↔
      ∃ before after, keys = before ++ k :: after ∧ (∀ j ∈ before, m.declares j = true) ∧
        m.declares k = false := by
  rw [List.find?_eq_some_iff_append]
  simp only [Bool.not_eq_true', Bool.not_not]
  constructor
  · rintro ⟨hk, before, after, hkeys, hb⟩
    exact ⟨before, after, hkeys, hb, hk⟩
  · rintro ⟨before, after, hkeys, hb, hk⟩
    exact ⟨hk, before, after, hkeys, hb⟩

theorem unlessRefused_reject_eq_ok_iff {α : Type} {a b : α} :
    m.unlessRefused .reject keys a = .ok b ↔
      (∀ k ∈ keys, m.declares k = true) ∧ a = b := by
  constructor
  · intro h
    refine ⟨?_, eq_of_unlessRefused_eq_ok h⟩
    intro k hk
    cases hf : keys.find? fun k => !m.declares k with
    | none => simpa using List.find?_eq_none.1 hf k hk
    | some j => simp only [unlessRefused, refusal?, hf, Option.map_some, reduceCtorEq] at h
  · rintro ⟨h, rfl⟩
    exact unlessRefused_of_declares h

/-- The refusal names the first key that is not declared. -/
theorem unlessRefused_reject_eq_error_iff {α : Type} {a : α} {e : UnknownField} :
    m.unlessRefused .reject keys a = .error e ↔
      ∃ before k after, keys = before ++ k :: after ∧ (∀ j ∈ before, m.declares j = true) ∧
        m.declares k = false ∧ e = ⟨m.name, k⟩ := by
  have refused : m.unlessRefused .reject keys a = .error e ↔
      ∃ k, (keys.find? fun k => !m.declares k) = some k ∧ e = ⟨m.name, k⟩ := by
    unfold unlessRefused refusal?
    cases keys.find? fun k => !m.declares k with
    | none => simp
    | some k => simp [eq_comm]
  rw [refused]
  constructor
  · rintro ⟨k, hk, rfl⟩
    obtain ⟨before, after, hkeys, hb, hd⟩ := find?_undeclared_eq_some_iff.1 hk
    exact ⟨before, k, after, hkeys, hb, hd, rfl⟩
  · rintro ⟨before, k, after, hkeys, hb, hd, rfl⟩
    exact ⟨k, find?_undeclared_eq_some_iff.2 ⟨before, after, hkeys, hb, hd⟩, rfl⟩

end Model

/-! ## Building -/

namespace Query

/-- The keys that a query mentions: those of the selection, whatever their flag,
then those of the order, then those of the filter at every depth. -/
def keys (q : Query) : List String :=
  q.selection.elim [] Selection.keys ++ q.orderBy.map SortKey.field ++
    q.filter.elim [] Filter.keys

/-- The descriptor of a query, of whose filter the declared part is kept. -/
def descriptor (q : Query) : Select where
  model := q.model
  selection := q.selection
  filter := q.filter.bind fun f => Clause.combine (f.kept q.model)
  orderBy := q.orderBy
  limit := q.limit
  offset := q.offset
  pagination := q.pagination

/-! What a setter makes of the parts that building reads. -/

section Setters

variable (q : Query) (f : Filter) (n : UInt64)

@[simp, grind =]
theorem model_matching : (q.matching f).model = q.model := rfl

@[simp, grind =]
theorem policy_matching : (q.matching f).policy = q.policy := rfl

@[simp, grind =]
theorem keys_matching : (q.matching f).keys =
    q.selection.elim [] Selection.keys ++ q.orderBy.map SortKey.field ++ f.keys := rfl

@[simp, grind =]
theorem descriptor_matching : (q.matching f).descriptor =
    { q.descriptor with filter := f.kept? q.model } := rfl

@[simp, grind =]
theorem model_take : (q.take n).model = q.model := rfl

@[simp, grind =]
theorem policy_take : (q.take n).policy = q.policy := rfl

@[simp, grind =]
theorem keys_take : (q.take n).keys = q.keys := rfl

@[simp, grind =]
theorem descriptor_take : (q.take n).descriptor = { q.descriptor with limit := some n } := rfl

end Setters

theorem keys_eq (q : Query) : q.keys = q.namedKeys ++ q.filter.elim [] Filter.keys := by
  unfold keys namedKeys
  cases q.selection <;> rfl

theorem checkKeys_eq (q : Query) :
    q.checkKeys = q.model.unlessRefused .reject q.namedKeys () := by
  unfold checkKeys Model.unlessRefused Model.refusal?
  cases q.namedKeys.find? fun k => !q.model.declares k <;> rfl

theorem normalized_eq (q : Query) :
    q.normalized = q.model.unlessRefused q.policy (q.filter.elim [] Filter.keys)
      { clause := q.filter.bind fun f => Clause.combine (f.kept q.model),
        directives := q.filter.elim [] (Filter.directives q.model) } := by
  unfold normalized
  cases q.filter with
  | none =>
    rw [Option.elim_none, Model.unlessRefused, Model.refusal?_nil]
    rfl
  | some f => exact f.normalize_eq q.model q.policy

/-- Building refuses the first key that is not admitted, and else gives the
descriptor. -/
theorem build_eq (q : Query) :
    q.build = q.model.unlessRefused q.policy q.keys q.descriptor := by
  have described : (q.normalized >>= fun n => Except.ok { q.descriptor with filter := n.clause }) =
      q.model.unlessRefused q.policy (q.filter.elim [] Filter.keys) q.descriptor := by
    rw [normalized_eq]
    exact Model.map_unlessRefused (fun n : Normalized => { q.descriptor with filter := n.clause }) _
  rw [keys_eq]
  cases hp : q.policy with
  | reject =>
    rw [← Model.bind_unlessRefused _ _ () fun _ => q.descriptor, ← checkKeys_eq, ← hp, ← described]
    simp only [build, hp]
    rfl
  | ignore =>
    rw [hp] at described
    simp only [build, hp]
    exact described

end Query

/-! ## Paths -/

/-- Every path in the text of a descriptor is the one that the model declares for
the key. Raw fragments are no paths, and the default column has no key. -/
structure Select.IsResolved (s : Select) : Prop where
  columns : s.projectedKeys = [] ∧ s.projection = [defaultProjection] ∨
    s.projectedKeys.map s.model.pathFor? = s.projection.map some
  conditions : ∀ c, s.filter = some c → ∀ t ∈ c.conditions,
    s.model.pathFor? t.key = some t.path
  order : ∀ o ∈ s.orderBy, ∃ path, s.model.pathFor? o.field = some path ∧
    s.sortKeyText o = path ++ " " ++ o.direction.keyword

namespace Select

/-- Only keys of the selection are asked for beyond the model. -/
theorem declares_of_mem_projectedKeys {s : Select} {sel : Selection}
    (hsel : s.selection = some sel) (h : ∀ k ∈ sel.keys, s.model.declares k = true) :
    ∀ k ∈ s.projectedKeys, s.model.declares k = true := by
  intro k hk
  simp only [projectedKeys, hsel, List.mem_append, List.mem_filter] at hk
  rcases hk with ⟨hk, _⟩ | ⟨hk, _⟩
  · exact Model.mem_keys_iff.1 hk
  · obtain ⟨e, he, rfl⟩ := List.mem_map.1 hk
    exact h e.1 (List.mem_map_of_mem (List.mem_filter.1 he).1)

theorem projection_eq (s : Select) :
    s.projectedKeys = [] ∧ s.projection = [defaultProjection] ∨
      s.projection = s.projectedKeys.map s.model.pathFor := by
  unfold projection
  cases s.projectedKeys with
  | nil => exact .inl ⟨rfl, rfl⟩
  | cons k ks => exact .inr rfl

end Select

namespace Query

theorem declares_of_mem_projectedKeys_descriptor {q : Query}
    (h : ∀ k ∈ q.keys, q.model.declares k = true) :
    ∀ k ∈ q.descriptor.projectedKeys, q.model.declares k = true := by
  cases hsel : q.selection with
  | none =>
    intro k hk
    simp only [Select.projectedKeys, descriptor, hsel] at hk
    exact Model.mem_keys_iff.1 hk
  | some sel =>
    refine Select.declares_of_mem_projectedKeys (s := q.descriptor) hsel fun k hk => h k ?_
    simp [keys, hsel, hk]

/-- Conditions are on declared fields only, under the path of the model. -/
theorem pathFor?_of_mem_conditions {q : Query} {c : Clause} (h : q.descriptor.filter = some c) :
    ∀ t ∈ c.conditions, q.model.pathFor? t.key = some t.path := by
  intro t ht
  obtain ⟨f, _, hf⟩ := Option.bind_eq_some_iff.1 h
  exact ((Clause.isCanonical_of_combine f.isCanonical_of_mem_kept hf).2 t ht).1

theorem isResolved_descriptor {q : Query} (h : ∀ k ∈ q.keys, q.model.declares k = true) :
    q.descriptor.IsResolved where
  columns := by
    refine q.descriptor.projection_eq.imp_right fun projected => ?_
    rw [projected, List.map_map]
    exact List.map_congr_left fun k hk =>
      Model.pathFor?_eq_some_pathFor (declares_of_mem_projectedKeys_descriptor h k hk)
  conditions _ := pathFor?_of_mem_conditions
  order := by
    intro o ho
    have listed : o.field ∈ q.keys :=
      List.mem_append_left _ (List.mem_append_right _ (List.mem_map_of_mem ho))
    exact ⟨_, Model.pathFor?_eq_some_pathFor (h o.field listed), rfl⟩

/-- Under the strict policy building fails just if some key of the query is not
declared, for the first such key; what is built asks for what the query asked for,
by declared paths. -/
theorem build_of_policy_eq_reject (q : Query) (h : q.policy = .reject) :
    ((∃ e, q.build = .error e) ↔ ∃ k ∈ q.keys, q.model.declares k = false) ∧
      (∀ e, q.build = .error e ↔ ∃ before k after, q.keys = before ++ k :: after ∧
        (∀ j ∈ before, q.model.declares j = true) ∧ q.model.declares k = false ∧
          e = ⟨q.model.name, k⟩) ∧
      ∀ s, q.build = .ok s → s.model = q.model ∧ s.selection = q.selection ∧
        s.orderBy = q.orderBy ∧ s.IsResolved := by
  have build := q.build_eq
  rw [h] at build
  refine ⟨?_, ?_, ?_⟩
  · rw [build]
    constructor
    · rintro ⟨e, he⟩
      obtain ⟨before, k, after, hkeys, _, hd, _⟩ := Model.unlessRefused_reject_eq_error_iff.1 he
      exact ⟨k, by simp [hkeys], hd⟩
    · rintro ⟨k, hk, hd⟩
      cases hb : q.model.unlessRefused .reject q.keys q.descriptor with
      | error e => exact ⟨e, rfl⟩
      | ok s => simp [(Model.unlessRefused_reject_eq_ok_iff.1 hb).1 k hk] at hd
  · intro e
    rw [build, Model.unlessRefused_reject_eq_error_iff]
  · intro s hs
    rw [build, Model.unlessRefused_reject_eq_ok_iff] at hs
    obtain ⟨declared, rfl⟩ := hs
    exact ⟨rfl, rfl, rfl, isResolved_descriptor declared⟩

/-- A query whose only undeclared keys stand under a negation, one of them with no
operators, behind keys that are not asked for. -/
def misspelt : Query where
  model := .deals
  selection := some ⟨[("amount", false), ("id", true)]⟩
  filter := some [.any [[.field "name" .null]],
    .not [.all [[.field "owner" .null, .field "stage" (.ops [])]]], .field "closed" .null]
  orderBy := [⟨"name", .desc⟩]

/-- `misspelt` with the keys of the model, and no column. -/
def spelt : Query where
  model := .deals
  selection := some ⟨[("amount", false)]⟩
  filter := some [.not [.all [[.field "owner" .null, .field "id" (.ops [])]]], .raw "IsWon"]
  orderBy := [⟨"name", .desc⟩]

theorem build_of_policy_eq_reject_misspelt :
    (misspelt.policy = .reject ∧ misspelt.build = .error ⟨"Deal", "stage"⟩ ∧
      ∃ before after, misspelt.keys = before ++ "stage" :: after) ∧
      spelt.policy = .reject ∧ ∃ s, spelt.build = .ok s ∧ s.IsResolved ∧
        s.soql = "SELECT Id FROM Opportunity WHERE ((NOT (Owner.Name = null)) AND IsWon)" ++
          " ORDER BY Name DESC" := by
  have refused : misspelt.build = .error ⟨"Deal", "stage"⟩ := rfl
  obtain ⟨before, k, after, hkeys, _, _, he⟩ :=
    ((build_of_policy_eq_reject misspelt rfl).2.1 _).1 refused
  cases he
  refine ⟨⟨rfl, refused, before, after, hkeys⟩, rfl, ?_⟩
  exact ⟨_, rfl, ((build_of_policy_eq_reject spelt rfl).2.2 _ rfl).2.2.2, by decide⟩

end Query

end FilterQuery

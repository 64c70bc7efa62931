import FilterQuery.Proofs.Document.Lenient
import FilterQuery.Proofs.Query.Keys

/-!
# Lenient reading extends strict reading

The lenient policy fails on nothing but a document that is no object, and it leaves
alone what needs no leniency. Main statement: it reads exactly the objects and null,
it reads every document that the strict policy reads, as the same filter, and a
query with a filter that it has read is built, with conditions on declared fields
only.
-/

namespace FilterQuery

/-- Induction over a document. Of an object every member may be used, and if it is an
array, every element as well: the filters of a combinator stand there. -/
theorem Json.document_induction {P : Json → Prop}
    (other : ∀ doc, (∀ ms, doc ≠ .object ms) → P doc)
    (object : ∀ ms : Members, (∀ member ∈ ms, P member.2 ∧
      ∀ items, member.2 = .array items → ∀ v ∈ items, P v) → P (.object ms)) (doc : Json) :
    P doc := by
  suffices h : P doc ∧ ∀ items, doc = .array items → ∀ v ∈ items, P v from h.1
  induction doc with
  | null | bool | number | string => exact ⟨other _ nofun, nofun⟩
  | array vs ih =>
    refine ⟨other _ nofun, ?_⟩
    rintro _ ⟨⟩ v hv
    exact (ih v hv).1
  | object ms ih => exact ⟨object ms ih, nofun⟩

/-! ## What the strict policy reads -/

/-- Parts that the strict policy reads are read under any policy in another form `k`, as
what `g` makes of them, if that is so for each of them. -/
theorem Policy.gather_of_gather_reject {α β γ δ : Type} {policy : Policy}
    {read : γ → Except FilterFault α} {read' : δ → Except FilterFault β} {k : γ → δ} {g : α → β}
    {cs : List γ} {as : List α} (each : ∀ c ∈ cs, ∀ a, read c = .ok a → read' (k c) = .ok (g a))
    (h : Policy.reject.gather read cs = .ok as) :
    policy.gather read' (cs.map k) = .ok (as.map g) := by
  induction cs generalizing as with
  | nil =>
    cases h
    rfl
  | cons c cs ih =>
    rw [gather, keep_reject, bind_eq_ok_iff] at h
    obtain ⟨_, first, h⟩ := h
    obtain ⟨a, ha, rfl⟩ := map_eq_ok_iff.1 first
    obtain ⟨rest, hrest, ⟨⟩⟩ := bind_eq_ok_iff.1 h
    rw [List.map_cons, gather, each c (by simp) a ha,
      ih (fun c hc => each c (by simp [hc])) hrest]
    rfl

/-- Parts that the strict policy reads are read by the lenient one, if that is so for
each of them. -/
theorem Policy.gather_ignore_of_gather_reject {α β : Type}
    {read read' : α → Except FilterFault β} {as : List α} {bs : List β}
    (each : ∀ a ∈ as, ∀ b, read a = .ok b → read' a = .ok b)
    (h : Policy.reject.gather read as = .ok bs) : Policy.ignore.gather read' as = .ok bs := by
  simpa only [List.map_id] using gather_of_gather_reject (k := id) (g := id) each h

theorem FieldOp.ofMembers_ignore_of_reject {field : String} {ms : Members} {ops : List FieldOp}
    (h : ofMembers .reject field ms = .ok ops) : ofMembers .ignore field ms = .ok ops := by
  rw [ofMembers_eq_ok_iff] at h ⊢
  obtain ⟨each, _, marked⟩ := h
  exact ⟨fun member hm _ => each member hm (.inl rfl), nofun, marked⟩

theorem FieldTest.ofJson_ignore_of_reject {field : String} {v : Json} {t : FieldTest}
    (h : ofJson .reject field v = .ok t) : ofJson .ignore field v = .ok t := by
  cases v with
  | object ms =>
    obtain ⟨ops, hops, rfl⟩ := map_eq_ok_iff.1 h
    rw [ofJson, FieldOp.ofMembers_ignore_of_reject hops, map_ok]
  | null | bool | number | string | array => exact h

theorem Entry.ofJunction_ignore_of_reject {make : List Filter → Entry} {name : String}
    {v : Json} {e : Entry} (items : ∀ items, v = .array items → ∀ w ∈ items, ∀ f,
      Filter.ofJson .reject w = .ok f → Filter.ofJson .ignore w = .ok f)
    (h : ofJunction .reject make name v = .ok e) : ofJunction .ignore make name v = .ok e := by
  cases v with
  | array vs =>
    obtain ⟨fs, hfs, rfl⟩ := map_eq_ok_iff.1 h
    rw [Filter.ofItems_eq_gather] at hfs
    rw [ofJunction, Filter.ofItems_eq_gather,
      Policy.gather_ignore_of_gather_reject (items vs rfl) hfs, Except.map]
  | null | bool | number | string | object => cases h

/-- A member that the strict policy reads is read by the lenient one, if that is so for
the documents in it. -/
theorem Entry.ofMember_ignore_of_reject {key : String} {v : Json} {e : Entry}
    (inner : ∀ f, Filter.ofJson .reject v = .ok f → Filter.ofJson .ignore v = .ok f)
    (items : ∀ items, v = .array items → ∀ w ∈ items, ∀ f,
      Filter.ofJson .reject w = .ok f → Filter.ofJson .ignore w = .ok f)
    (h : ofMember .reject (key, v) = .ok e) : ofMember .ignore (key, v) = .ok e := by
  induction key using Entry.key_cases with
  | all => exact ofJunction_ignore_of_reject items h
  | any => exact ofJunction_ignore_of_reject items h
  | not =>
    obtain ⟨f, hf, rfl⟩ := map_eq_ok_iff.1 (show (Filter.ofJson .reject v).map .not = .ok e from h)
    exact congrArg (Except.map Entry.not) (inner f hf)
  | raw => exact h
  | unknown key reserved other =>
    rw [ofMember_unknown reserved other] at h
    cases h
  | field key plain =>
    rw [ofMember_field plain, map_eq_ok_iff] at h
    obtain ⟨t, ht, rfl⟩ := h
    rw [ofMember_field plain, FieldTest.ofJson_ignore_of_reject ht, map_ok]

/-- The lenient policy reads what the strict one reads, as the same filter. -/
theorem Filter.ofJson_ignore_of_reject (doc : Json) :
    ∀ f, Filter.ofJson .reject doc = .ok f → Filter.ofJson .ignore doc = .ok f := by
  induction doc using Json.document_induction with
  | other doc notObject =>
    intro f h
    cases doc with
    | null => exact h
    | object ms => exact absurd rfl (notObject ms)
    | bool | number | string | array => cases h
  | object ms ih =>
    intro f h
    rw [Filter.ofJson, Filter.ofMembers_eq_gather] at h ⊢
    refine Policy.gather_ignore_of_gather_reject (fun member hm e he => ?_) h
    exact Entry.ofMember_ignore_of_reject (ih member hm).1 (ih member hm).2 he

theorem Filter.parse_eq_ok_iff {policy : Policy} {doc : Json} {f : Filter} :
    Filter.parse policy doc = .ok f ↔ Filter.ofJson policy doc = .ok f := by
  rw [Filter.parse]
  cases Filter.ofJson policy doc <;> simp

/-- Whatever stands in an object, the lenient policy reads it. -/
theorem Filter.exists_parse_ignore_iff {doc : Json} :
    (∃ f, Filter.parse .ignore doc = .ok f) ↔ doc = .null ∨ ∃ ms, doc = .object ms := by
  cases doc with
  | null => exact iff_of_true ⟨[], rfl⟩ (.inl rfl)
  | object ms => exact iff_of_true ⟨_, Filter.parse_ignore_object ms⟩ (.inr ⟨ms, rfl⟩)
  | bool | number | string | array => exact iff_of_false nofun nofun

/-! ## Queries -/

namespace Query

/-- Under the lenient policy every query is built. -/
theorem build_of_policy_eq_ignore {q : Query} (h : q.policy = .ignore) :
    q.build = .ok q.descriptor := by
  rw [build_eq, h]
  rfl

end Query

/-- The lenient policy reads exactly the objects and null, and what the strict one reads
it reads as the same filter. A query with a filter that it has read is built under it: the
descriptor has the condition tree of the filter, and every condition in it is on a
declared field, under the path of the model. -/
theorem Filter.parse_ignore_extends (doc : Json) :
    ((∃ f, Filter.parse .ignore doc = .ok f) ↔ doc = .null ∨ ∃ ms, doc = .object ms) ∧
    (∀ f, Filter.parse .reject doc = .ok f → Filter.parse .ignore doc = .ok f) ∧
    ∀ f, Filter.parse .ignore doc = .ok f → ∀ q : Query, ∃ s n,
      ((q.matching f).onUnknown .ignore).build = .ok s ∧
      f.normalize q.model .ignore = .ok n ∧ s.filter = n.clause ∧
      s.model = q.model ∧ s.selection = q.selection ∧ s.orderBy = q.orderBy ∧
      ∀ clause, s.filter = some clause → ∀ c ∈ clause.conditions,
        q.model.pathFor? c.key = some c.path := by
  refine ⟨Filter.exists_parse_ignore_iff, fun f h => ?_, fun f _ q => ?_⟩
  · rw [Filter.parse_eq_ok_iff] at h ⊢
    exact Filter.ofJson_ignore_of_reject doc f h
  · have built := Query.build_of_policy_eq_ignore (q := (q.matching f).onUnknown .ignore) rfl
    exact ⟨_, _, built, f.normalize_eq q.model .ignore, rfl, rfl, rfl, rfl,
      fun clause => Query.pathFor?_of_mem_conditions⟩

/-- A document with something that cannot be read at every depth. -/
def Json.ragged : Json :=
  .object [("amount", .object [("$gte", .ofInt 5), ("$between", .array [.object [], .ofInt 9])]),
    ("$or", .array [.ofInt 1, .object [("$nor", .null),
      ("stage", .object [("$in", .array [.string "Won"]), ("$chunk", .string "all")])]]),
    ("$raw", .null), ("name", .string "Acme")]

/-- A document that the strict policy reads, with a chunking under a negation. -/
def Json.even : Json :=
  .object [("stage", .null), ("$not", .object [("name", .object [
    ("$in", .array [.string "Acme"]), ("$chunk", .object [("size", .ofInt 2)])])])]

/-- A query with an undeclared key in its selection and in its order. -/
def Query.astray : Query :=
  ((Query.ofModel .deals).select ⟨[("id", true), ("stage", true)]⟩).sortBy [⟨"closed", .desc⟩]

theorem Filter.parse_ignore_extends_ragged :
    (Filter.parse .reject .ragged).toOption.isNone = true ∧
      (∃ f, Filter.parse .ignore .ragged = .ok f) ∧
      ∃ f, Filter.parse .reject .even = .ok f ∧ Filter.parse .ignore .even = .ok f ∧
        ∃ s, ((Query.astray.matching f).onUnknown .ignore).build = .ok s ∧
          s.soql = "SELECT Id, stage FROM Opportunity WHERE (NOT Name IN ('Acme'))" ++
            " ORDER BY closed DESC" ∧
          ∀ clause, s.filter = some clause → ∀ c ∈ clause.conditions,
            Model.deals.pathFor? c.key = some c.path := by
  obtain ⟨objects, _, _⟩ := Filter.parse_ignore_extends .ragged
  obtain ⟨_, extends_, build⟩ := Filter.parse_ignore_extends .even
  refine ⟨rfl, objects.2 (.inr ⟨_, rfl⟩), _, rfl, extends_ _ rfl, ?_⟩
  obtain ⟨s, n, built, _, _, _, _, _, declared⟩ := build _ rfl .astray
  refine ⟨s, built, ?_, declared⟩
  cases built
  decide

end FilterQuery

import FilterQuery.Proofs.Document.Extension
import FilterQuery.Proofs.Filter.Applied
import FilterQuery.Proofs.Filter.Unmarked

/-!
# Chunkings beside the query

A document without the chunkings in its operator objects. Main statement: a filter
and the document that it is read from lose nothing but their directives with their
chunkings, and the directives are those of the marked membership tests, which stand in
the same order among the conditions of the tree.
-/

namespace FilterQuery

/-- The members of an operator object without the chunking. -/
def Members.withoutChunk (ms : Members) : Members :=
  ms.filter fun member => member.1 ≠ "$chunk"

/-- The value of a field without the chunking, if it is an operator object. -/
def Json.unchunkedOperators : Json → Json
  | .object ms => .object (Members.withoutChunk ms)
  | v => v

mutual

/-- A document without the chunkings of its operator objects, at every depth. -/
def Json.unchunked : Json → Json
  | .object ms => .object (Members.unchunked ms)
  | v => v
termination_by structural v => v

/-- The members of a document without the chunkings of their operator objects. -/
def Members.unchunked : List (String × Json) → List (String × Json)
  | [] => []
  | (key, v) :: ms =>
      (key,
        if key = "$and" ∨ key = "$or" then v.unchunkedElements
        else if key = "$not" then v.unchunked
        else if isReserved key then v
        else v.unchunkedOperators) :: Members.unchunked ms
termination_by structural ms => ms

/-- The filters of a combinator without the chunkings of their operator objects. -/
def Json.unchunkedElements : Json → Json
  | .array items => .array (Json.unchunkedItems items)
  | v => v
termination_by structural v => v

/-- Each document without the chunkings of its operator objects. -/
def Json.unchunkedItems : List Json → List Json
  | [] => []
  | v :: vs => v.unchunked :: Json.unchunkedItems vs
termination_by structural vs => vs

end

@[simp, grind =]
theorem Json.unchunkedItems_eq_map (vs : List Json) : unchunkedItems vs = vs.map unchunked := by
  induction vs with
  | nil => rfl
  | cons v vs ih => rw [unchunkedItems, ih, List.map_cons]

/-- A member of a document without the chunkings of its operator objects. -/
def Json.unchunkedMember (member : String × Json) : String × Json :=
  (member.1,
    if member.1 = "$and" ∨ member.1 = "$or" then member.2.unchunkedElements
    else if member.1 = "$not" then member.2.unchunked
    else if isReserved member.1 then member.2
    else member.2.unchunkedOperators)

@[simp, grind =]
theorem Members.unchunked_eq_map (ms : Members) :
    Members.unchunked ms = ms.map Json.unchunkedMember := by
  induction ms with
  | nil => rfl
  | cons member ms ih => rw [Members.unchunked, ih, List.map_cons, Json.unchunkedMember]

/-! ## What the reader makes of it -/

theorem toOption_map {ε α β : Type} (f : α → β) (x : Except ε α) :
    (x.map f).toOption = x.toOption.map f := by
  cases x <;> rfl

namespace Policy

variable {α β γ δ : Type} {policy : Policy}

/-- Where the policy goes on after a part, another reading of it gives the same, changed
by `g`, or likewise nothing. -/
def Carries (policy : Policy) (g : α → β) (x : Except FilterFault α) (y : Except FilterFault β) :
    Prop :=
  (policy = .reject → ∃ a, x = .ok a) → y.toOption = x.toOption.map g

theorem Carries.map {g : α → β} {g' : γ → δ} {k : α → γ} {k' : β → δ} {x : Except FilterFault α}
    {y : Except FilterFault β} (h : policy.Carries g x y) (commutes : ∀ a, k' (g a) = g' (k a)) :
    policy.Carries g' (x.map k) (y.map k') := by
  intro goesOn
  rw [toOption_map, toOption_map, h fun hp => exists_map_eq_ok_iff.1 (goesOn hp)]
  simp [Function.comp_def, commutes]

theorem Carries.of_eq {g : α → α} {x : Except FilterFault α} (h : ∀ a, x = .ok a → g a = a) :
    policy.Carries g x x := by
  intro _
  cases x with
  | ok a => exact congrArg some (h a rfl).symm
  | error e => rfl

/-- Parts that are carried over one by one are carried over together. -/
theorem Carries.gather {g : α → β} {read : γ → Except FilterFault α}
    {read' : δ → Except FilterFault β} {k : γ → δ} {cs : List γ}
    (each : ∀ c ∈ cs, policy.Carries g (read c) (read' (k c))) :
    policy.Carries (List.map g) (policy.gather read cs) (policy.gather read' (cs.map k)) := by
  intro goesOn
  cases policy with
  | ignore =>
    simp only [gather_ignore, Except.toOption, Option.map_some, List.filterMap_map,
      List.map_filterMap]
    refine congrArg some (List.filterMap_congr fun c hc => each c hc ?_)
    rintro ⟨⟩
  | reject =>
    obtain ⟨as, has⟩ := goesOn rfl
    have carried : ∀ c ∈ cs, ∀ a, read c = .ok a → read' (k c) = .ok (g a) := by
      intro c hc a ha
      rw [← toOption_eq_some_iff, each c hc fun _ => ⟨a, ha⟩, ha]
      rfl
    rw [has, gather_of_gather_reject carried has]
    rfl

end Policy

/-! ## Operators -/

namespace OpsRead

variable {field : String} {ms : Members}

@[simp]
theorem chunking_ofMembers_withoutChunk : (ofMembers field ms.withoutChunk).chunking = none :=
  chunking_foldl_after (by simp [Members.withoutChunk])

/-- A chunking is no operator, and the operators are read without it as with it. -/
@[simp]
theorem marked_ofMembers_withoutChunk : (ofMembers field ms.withoutChunk).marked =
    (ofMembers field ms).marked.map FieldOp.unmarked := by
  rw [map_unmarked_marked_ofMembers, ← List.filterMap_eq_flatMap_toList, marked,
    chunking_ofMembers_withoutChunk]
  simp only
  rw [ops_ofMembers, Members.withoutChunk, List.filterMap_filter]
  refine List.filterMap_congr fun member _ => ?_
  obtain ⟨op, v⟩ := member
  by_cases hc : op = "$chunk"
  · subst hc
    rfl
  · simp [hc]

end OpsRead

/-- An operator object is read without its chunking as with it, apart from the marks. -/
theorem FieldOp.carries_ofMembers (policy : Policy) (field : String) (ms : Members) :
    policy.Carries (List.map unmarked) (ofMembers policy field ms)
      (ofMembers policy field ms.withoutChunk) := by
  intro goesOn
  cases read : ofMembers policy field ms with
  | ok ops =>
    obtain ⟨each, _, rfl⟩ := ofMembers_eq_ok_iff.1 read
    have carried : ofMembers policy field ms.withoutChunk =
        .ok ((OpsRead.ofMembers field ms).marked.map unmarked) :=
      ofMembers_eq_ok_iff.2 ⟨fun member hm => each member (List.mem_filter.1 hm).1,
        fun _ => .inl OpsRead.chunking_ofMembers_withoutChunk,
        OpsRead.marked_ofMembers_withoutChunk⟩
    rw [carried]
    rfl
  | error fault =>
    cases policy with
    | reject =>
      obtain ⟨ops, hops⟩ := goesOn rfl
      rw [read] at hops
      cases hops
    | ignore =>
      -- the members that stop the reading are bounds, so they are still there
      obtain ⟨member, hm, range, unapplied⟩ :=
        exists_ofMembers_ignore_eq_error_iff.1 ⟨fault, read⟩
      have stays : member ∈ ms.withoutChunk := by
        simp [Members.withoutChunk, hm, range.1]
      obtain ⟨fault', stopped⟩ : ∃ fault, ofMembers .ignore field ms.withoutChunk = .error fault :=
        exists_ofMembers_ignore_eq_error_iff.2 ⟨member, stays, range, unapplied⟩
      rw [stopped]
      rfl

theorem FieldTest.carries_ofJson (policy : Policy) (field : String) (v : Json) :
    policy.Carries FieldTest.unmarked (FieldTest.ofJson policy field v)
      (FieldTest.ofJson policy field v.unchunkedOperators) := by
  have literal : ∀ t, (Value.ofJson v).map FieldTest.value = .ok t → t.unmarked = t := by
    intro t ht
    obtain ⟨a, _, rfl⟩ := map_eq_ok_iff.1 ht
    rfl
  cases v with
  | null => exact .of_eq (by rintro _ ⟨⟩; rfl)
  | object ms => exact (FieldOp.carries_ofMembers policy field ms).map fun _ => rfl
  | bool | number | string | array => exact .of_eq literal

/-! ## Documents -/

theorem Entry.carries_ofJunction {policy : Policy} {make : List Filter → Entry} {name : String}
    {v : Json} (commutes : ∀ fs, make (fs.map Filter.unmarked) = (make fs).unmarked)
    (items : ∀ items, v = .array items → ∀ w ∈ items,
      policy.Carries Filter.unmarked (Filter.ofJson policy w) (Filter.ofJson policy w.unchunked)) :
    policy.Carries Entry.unmarked (Entry.ofJunction policy make name v)
      (Entry.ofJunction policy make name v.unchunkedElements) := by
  cases v with
  | array vs =>
    simp only [Json.unchunkedElements, Json.unchunkedItems_eq_map, Entry.ofJunction,
      Filter.ofItems_eq_gather]
    exact (Policy.Carries.gather (items vs rfl)).map commutes
  | null | bool | number | string | object => exact .of_eq fun _ read => by cases read

theorem Json.unchunkedMember_of_reserved {key : String} {v : Json}
    (reserved : isReserved key = true) (h : key ∉ ["$and", "$or", "$not"]) :
    Json.unchunkedMember (key, v) = (key, v) := by
  simp only [List.mem_cons, List.not_mem_nil, or_false, not_or] at h
  simp [Json.unchunkedMember, h, reserved]

theorem Json.unchunkedMember_field {key : String} {v : Json}
    (plain : key.toList.head? ≠ some '$') :
    Json.unchunkedMember (key, v) = (key, v.unchunkedOperators) := by
  have none : key ∉ ["$and", "$or", "$not"] := notMem_of_head_ne plain (by decide)
  simp only [List.mem_cons, List.not_mem_nil, or_false, not_or] at none
  simp [Json.unchunkedMember, none, isReserved_eq_false_iff.2 plain]

/-- A member is read without its chunkings as with them, if that is so for the documents
in it. -/
theorem Entry.carries_ofMember {policy : Policy} {key : String} {v : Json}
    (inner : policy.Carries Filter.unmarked (Filter.ofJson policy v)
      (Filter.ofJson policy v.unchunked))
    (items : ∀ items, v = .array items → ∀ w ∈ items,
      policy.Carries Filter.unmarked (Filter.ofJson policy w) (Filter.ofJson policy w.unchunked)) :
    policy.Carries Entry.unmarked (Entry.ofMember policy (key, v))
      (Entry.ofMember policy (Json.unchunkedMember (key, v))) := by
  induction key using Entry.key_cases with
  | all =>
    exact Entry.carries_ofJunction
      (fun fs => by rw [Entry.unmarked, Filter.unmarkedAll_eq_map]) items
  | any =>
    exact Entry.carries_ofJunction
      (fun fs => by rw [Entry.unmarked, Filter.unmarkedAll_eq_map]) items
  | not => exact inner.map fun _ => rfl
  | raw =>
    rw [Json.unchunkedMember_of_reserved rfl (by decide)]
    refine .of_eq fun e he => ?_
    cases v with
    | string fragment =>
      cases he
      rfl
    | null | bool | number | array | object => cases he
  | unknown key reserved other =>
    have none : key ∉ ["$and", "$or", "$not"] := fun hk => other (List.mem_append_left ["$raw"] hk)
    rw [Json.unchunkedMember_of_reserved reserved none, Entry.ofMember_unknown reserved other]
    exact .of_eq fun _ read => by cases read
  | field key plain =>
    rw [Json.unchunkedMember_field plain, Entry.ofMember_field plain, Entry.ofMember_field plain]
    exact (FieldTest.carries_ofJson policy key v).map fun _ => rfl

/-- A document is read without its chunkings as with them, apart from the marks. -/
theorem Filter.carries_ofJson (policy : Policy) (doc : Json) :
    policy.Carries Filter.unmarked (Filter.ofJson policy doc)
      (Filter.ofJson policy doc.unchunked) := by
  induction doc using Json.document_induction with
  | other doc notObject =>
    have same : doc.unchunked = doc := by
      cases doc with
      | object ms => exact absurd rfl (notObject ms)
      | null | bool | number | string | array => rfl
    rw [same]
    refine .of_eq fun f hf => ?_
    cases doc with
    | null =>
      cases hf
      rfl
    | object ms => exact absurd rfl (notObject ms)
    | bool | number | string | array => cases hf
  | object ms ih =>
    rw [Json.unchunked, Filter.ofJson, Filter.ofJson, Members.unchunked_eq_map,
      Filter.ofMembers_eq_gather, Filter.ofMembers_eq_gather, funext Filter.unmarked_eq_map]
    exact .gather fun member hm => Entry.carries_ofMember (ih member hm).1 (ih member hm).2

/-- A document that is read is read without its chunkings, as the same filter without
marks. -/
theorem Filter.parse_unchunked {policy : Policy} {doc : Json} {f : Filter}
    (h : Filter.parse policy doc = .ok f) :
    Filter.parse policy doc.unchunked = .ok f.unmarked := by
  rw [Filter.parse_eq_ok_iff] at h ⊢
  rw [← toOption_eq_some_iff, Filter.carries_ofJson policy doc fun _ => ⟨f, h⟩, h]
  rfl

/-! ## The query and the directives -/

/-- Chunkings are beside the query. Without its chunkings a filter is refused for the same
key or gives the same tree, and a query with it is built alike; and a document without its
chunkings is read by the policy that reads it with them, as a filter that gives the same
tree and with which a query is built alike. The directives of a filter are those of the
marked membership tests with a value that it applies to declared fields, at every depth
and in their order, and by path, operator and values they are found in this order among
the conditions of the tree. -/
theorem Filter.normalize_beside_chunkings (m : Model) (policy : Policy) (f : Filter)
    (doc : Json) :
    (f.unmarked.normalize m policy =
        (f.normalize m policy).map fun n => { n with directives := [] }) ∧
    (∀ q : Query, (q.matching f.unmarked).build = (q.matching f).build) ∧
    (∀ g, Filter.parse policy doc = .ok g → ∃ h, Filter.parse policy doc.unchunked = .ok h ∧
      (h.normalize m policy).map Normalized.clause = (g.normalize m policy).map Normalized.clause ∧
      ∀ q : Query, (q.matching h).build = (q.matching g).build) ∧
    ∀ n, f.normalize m policy = .ok n →
      n.directives = (f.applied m).filterMap Application.directive? ∧
      (n.directives.map fun d => (d.path, d.operator, Operand.list d.values)).Sublist
        (n.conditions.map fun c => (c.path, c.op, c.operand)) := by
  refine ⟨f.normalize_unmarked m policy, fun q => q.build_matching_unmarked f, ?_, ?_⟩
  · intro g hg
    refine ⟨g.unmarked, Filter.parse_unchunked hg, ?_, fun q => q.build_matching_unmarked g⟩
    rw [g.normalize_unmarked m policy]
    cases g.normalize m policy <;> rfl
  · intro n hn
    exact ⟨(Filter.conditions_and_directives_of_normalize hn).2,
      Filter.directives_sublist_conditions hn⟩

/-- A filter with chunkings below combinators, on an undeclared field and on an empty list. -/
def Filter.batched : Filter :=
  [.field "stage" (.ops [.isIn { values := [.text "Won"], chunking := some {} }]),
    .any [[.field "id" (.ops [.ne .null,
        .isIn { values := [.text "1", .text "2"], chunking := some { size := some 1 } }])],
      [.not [.field "name" (.ops [.notIn { values := [.text "Acme"], chunking := some {} }])]]],
    .field "amount" (.ops [.isIn { values := [], chunking := some {} }])]

theorem Filter.normalize_beside_chunkings_batched :
    (∃ n, batched.normalize .deals .ignore = .ok n ∧
      n.directives = [⟨"Id", false, [.text "1", .text "2"], { size := some 1 }⟩,
        ⟨"Name", true, [.text "Acme"], {}⟩] ∧
      (n.directives.map fun d => (d.path, d.operator, Operand.list d.values)).Sublist
        (n.conditions.map fun c => (c.path, c.op, c.operand))) ∧
      ∃ g, Filter.parse .reject .even = .ok g ∧
        ∃ h, Filter.parse .reject Json.even.unchunked = .ok h ∧
          ∀ q : Query, (q.matching h).build = (q.matching g).build := by
  obtain ⟨_, _, _, directives⟩ := Filter.normalize_beside_chunkings .deals .ignore batched .null
  obtain ⟨_, _, documents, _⟩ := Filter.normalize_beside_chunkings .deals .reject [] .even
  obtain ⟨listed, among⟩ := directives _ rfl
  obtain ⟨h, read, _, built⟩ := documents _ rfl
  exact ⟨⟨_, rfl, listed, among⟩, _, rfl, h, read, built⟩

end FilterQuery

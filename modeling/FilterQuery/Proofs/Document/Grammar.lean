import FilterQuery.Error
import FilterQuery.Proofs.Document.Parts

/-!
# The grammar of filter documents

The documents that describe a filter, written down without the reader: what is a
literal, an operator object, a member, a document. Main statement: under the strict
policy a document is read just if it is of this grammar, and any other is refused
as no filter.
-/

namespace FilterQuery

/-- Induction over JSON values with a hypothesis for every element or member. -/
@[induction_eliminator]
theorem Json.induction {P : Json → Prop} (null : P .null) (bool : ∀ b, P (.bool b))
    (number : ∀ n, P (.number n)) (string : ∀ s, P (.string s))
    (array : ∀ items, (∀ v ∈ items, P v) → P (.array items))
    (object : ∀ ms : Members, (∀ member ∈ ms, P member.2) → P (.object ms)) (v : Json) : P v :=
  @Json.rec P (fun items => ∀ v ∈ items, P v) (fun ms => ∀ member ∈ ms, P member.2)
    (fun member => P member.2) null bool number string array object
    (by simp) (fun v vs hv hvs => by simpa using ⟨hv, hvs⟩)
    (by simp) (fun m ms hm hms => by simpa using ⟨hm, by simpa using hms⟩) (fun _ _ hv => hv) v

/-! ## The grammar -/

/-- A literal: no object stands in it. -/
inductive Json.IsLiteral : Json → Prop
  | null : IsLiteral .null
  | bool (b) : IsLiteral (.bool b)
  | number (n) : IsLiteral (.number n)
  | string (s) : IsLiteral (.string s)
  | array {items} (each : ∀ v ∈ items, IsLiteral v) : IsLiteral (.array items)

namespace FieldOp

/-- The operators that compare with one literal. -/
def comparisons : List String :=
  ["$eq", "$ne", "$gt", "$gte", "$lt", "$lte", "$like", "$startsWith", "$endsWith"]

/-- The operators that take a list. -/
def memberships : List String :=
  ["$in", "$nin"]

/-- A member of an operator object that applies an operator. -/
inductive IsApplied : String → Json → Prop
  | comparison {op v} (named : op ∈ comparisons) (literal : v.IsLiteral) : IsApplied op v
  | membership {op items} (named : op ∈ memberships) (each : ∀ v ∈ items, v.IsLiteral) :
      IsApplied op (.array items)
  | between {low high} (low_literal : low.IsLiteral) (high_literal : high.IsLiteral) :
      IsApplied "$between" (.array [low, high])
  | present (b) : IsApplied "$exists" (.bool b)

end FieldOp

/-- The members of an operator object: each applies an operator, or asks for a
chunking beside a membership test. -/
def Members.AreOperators (ms : Members) : Prop :=
  ∀ member ∈ ms, FieldOp.IsApplied member.1 member.2 ∨
    member.1 = "$chunk" ∧ (∃ c, Chunking.decode member.2 = .ok c) ∧
      ∃ other ∈ ms, other.1 ∈ FieldOp.memberships

mutual

/-- A document that describes a filter. -/
inductive Json.IsFilter : Json → Prop
  | null : IsFilter .null
  | object {ms : Members} (each : ∀ member ∈ ms, IsEntry member.1 member.2) :
      IsFilter (.object ms)

/-- A member of such a document. -/
inductive Json.IsEntry : String → Json → Prop
  | combinator {key items} (named : key = "$and" ∨ key = "$or")
      (each : ∀ v ∈ items, IsFilter v) : IsEntry key (.array items)
  | not {v} (inner : IsFilter v) : IsEntry "$not" v
  | raw (fragment) : IsEntry "$raw" (.string fragment)
  | literal {key v} (plain : key.toList.head? ≠ some '$') (literal : v.IsLiteral) :
      IsEntry key v
  | operators {key ms} (plain : key.toList.head? ≠ some '$')
      (each : Members.AreOperators ms) : IsEntry key (.object ms)

end

/-! ## Literals -/

theorem Json.isLiteral_array {items : List Json} :
    (Json.array items).IsLiteral ↔ ∀ v ∈ items, v.IsLiteral :=
  ⟨fun | .array each => each, .array⟩

theorem Value.exists_ofJson_iff {v : Json} :
    (∃ a, Value.ofJson v = .ok a) ↔ v.IsLiteral := by
  induction v with
  | null => exact iff_of_true ⟨_, rfl⟩ .null
  | bool b => exact iff_of_true ⟨_, rfl⟩ (.bool b)
  | number n => exact iff_of_true ⟨_, rfl⟩ (.number n)
  | string s => exact iff_of_true ⟨_, rfl⟩ (.string s)
  | array items ih =>
    rw [Value.ofJson, exists_map_eq_ok_iff, Value.ofItems_eq_gather,
      Policy.exists_gather_reject_iff, Json.isLiteral_array]
    exact forall₂_congr ih
  | object ms => exact iff_of_false nofun nofun

theorem Value.exists_ofItems_iff {items : List Json} :
    (∃ vs, Value.ofItems items = .ok vs) ↔ ∀ v ∈ items, v.IsLiteral := by
  simp only [Value.ofItems_eq_gather, Policy.exists_gather_reject_iff, Value.exists_ofJson_iff]

/-! ## Operators -/

namespace FieldOp

theorem isApplied_iff {op : String} {v : Json} : IsApplied op v ↔
    op ∈ comparisons ∧ v.IsLiteral ∨
    (op ∈ memberships ∧ ∃ items, v = .array items ∧ ∀ w ∈ items, w.IsLiteral) ∨
    (op = "$between" ∧ ∃ low high, v = .array [low, high] ∧ low.IsLiteral ∧ high.IsLiteral) ∨
    op = "$exists" ∧ ∃ b, v = .bool b := by
  constructor
  · rintro (⟨named, literal⟩ | ⟨named, each⟩ | ⟨low, high⟩ | b)
    · exact .inl ⟨named, literal⟩
    · exact .inr (.inl ⟨named, _, rfl, each⟩)
    · exact .inr (.inr (.inl ⟨rfl, _, _, rfl, low, high⟩))
    · exact .inr (.inr (.inr ⟨rfl, b, rfl⟩))
  · rintro (⟨named, literal⟩ | ⟨named, _, rfl, each⟩ | ⟨rfl, _, _, rfl, low, high⟩ | ⟨rfl, b, rfl⟩)
    · exact .comparison named literal
    · exact .membership named each
    · exact .between low high
    · exact .present b

/-- A comparison is made of its literal, and is no membership test. -/
theorem alone_comparison {op : String} (h : op ∈ comparisons) :
    ∃ make : Value → FieldOp, (∀ a, (make a).isMembership = false) ∧
      ∀ field v, alone field (op, v) = (Value.ofJson v).map make := by
  simp only [comparisons, List.mem_cons, List.not_mem_nil, or_false] at h
  rcases h with rfl | rfl | rfl | rfl | rfl | rfl | rfl | rfl | rfl
  all_goals exact ⟨_, by intro a; rfl, fun _ _ => rfl⟩

theorem alone_membership {op : String} (h : op ∈ memberships) :
    ∃ make : Membership → FieldOp, (make = .isIn ∨ make = .notIn) ∧
      ∀ field v, alone field (op, v) = (membersOf field op v).map make := by
  simp only [memberships, List.mem_cons, List.not_mem_nil, or_false] at h
  rcases h with rfl | rfl
  · exact ⟨.isIn, .inl rfl, fun _ _ => rfl⟩
  · exact ⟨.notIn, .inr rfl, fun _ _ => rfl⟩

theorem alone_unknown {field op : String} {v : Json} (hc : op ∉ comparisons)
    (hm : op ∉ memberships) (hb : op ≠ "$between") (he : op ≠ "$exists") :
    alone field (op, v) = .error (.unknownOperator field op) := by
  simp only [comparisons, memberships, List.mem_cons, List.not_mem_nil, or_false, not_or] at hc hm
  simp only [alone, hb, if_false]
  unfold ofMember
  split <;> simp_all

theorem exists_membersOf_iff {field op : String} {v : Json} :
    (∃ m, membersOf field op v = .ok m) ↔ ∃ items, v = .array items ∧ ∀ w ∈ items, w.IsLiteral := by
  cases v with
  | array items =>
    simp [membersOf, Value.exists_ofItems_iff]
  | null | bool | number | string | object => simp [membersOf]

theorem exists_alone_range_iff {field : String} {low high : Json} :
    (∃ o, alone field ("$between", .array [low, high]) = .ok o) ↔
      low.IsLiteral ∧ high.IsLiteral := by
  simp only [alone, if_true, bind_eq_ok_iff, ← Value.exists_ofJson_iff]
  constructor
  · rintro ⟨_, a, ha, b, hb, _⟩
    exact ⟨⟨a, ha⟩, b, hb⟩
  · rintro ⟨⟨a, ha⟩, b, hb⟩
    exact ⟨_, a, ha, b, hb, rfl⟩

theorem exists_alone_between_iff {field : String} {v : Json} :
    (∃ o, alone field ("$between", v) = .ok o) ↔
      ∃ low high, v = .array [low, high] ∧ low.IsLiteral ∧ high.IsLiteral := by
  by_cases hr : IsRange ("$between", v)
  · obtain ⟨_, low, high, rfl⟩ := hr
    rw [exists_alone_range_iff]
    constructor
    · exact fun h => ⟨low, high, rfl, h⟩
    · rintro ⟨_, _, ⟨⟩, h⟩
      exact h
  · rw [alone_between_of_not_isRange hr]
    refine iff_of_false nofun ?_
    rintro ⟨low, high, hv, _⟩
    exact hr ⟨rfl, low, high, hv⟩

theorem exists_alone_exists_iff {field : String} {v : Json} :
    (∃ o, alone field ("$exists", v) = .ok o) ↔ ∃ b, v = .bool b := by
  cases v <;> simp [alone, ofMember]

/-- A member stands for an operator just if it applies one. -/
theorem exists_alone_iff (field : String) {op : String} {v : Json} :
    (∃ o, alone field (op, v) = .ok o) ↔ IsApplied op v := by
  have apart : (∀ op ∈ comparisons, op ∉ memberships ∧ op ≠ "$between" ∧ op ≠ "$exists") ∧
      ∀ op ∈ memberships, op ≠ "$between" ∧ op ≠ "$exists" := by decide
  rw [isApplied_iff]
  by_cases hc : op ∈ comparisons
  · obtain ⟨make, _, h⟩ := alone_comparison hc
    rw [h, exists_map_eq_ok_iff, Value.exists_ofJson_iff]
    simp [hc, apart.1 op hc]
  by_cases hm : op ∈ memberships
  · obtain ⟨make, _, h⟩ := alone_membership hm
    rw [h, exists_map_eq_ok_iff, exists_membersOf_iff]
    simp [hc, hm, apart.2 op hm]
  by_cases hb : op = "$between"
  · subst hb
    rw [exists_alone_between_iff]
    simp [hc, hm]
  by_cases he : op = "$exists"
  · subst he
    rw [exists_alone_exists_iff]
    simp [hc, hm]
  · rw [alone_unknown hc hm hb he]
    simp [hc, hm, hb, he]

/-- The membership tests are the operators that take a list. -/
theorem isMembership_of_alone {field op : String} {v : Json} {o : FieldOp}
    (h : alone field (op, v) = .ok o) : o.isMembership = true ↔ op ∈ memberships := by
  by_cases hm : op ∈ memberships
  · obtain ⟨make, listed, hmake⟩ := alone_membership hm
    rw [hmake] at h
    obtain ⟨m, _, rfl⟩ := map_eq_ok_iff.1 h
    rcases listed with rfl | rfl <;> simp [hm, isMembership]
  refine iff_of_false (fun ho => ?_) hm
  rcases isApplied_iff.1 ((exists_alone_iff field).1 ⟨o, h⟩) with
    ⟨hc, _⟩ | ⟨named, _⟩ | ⟨rfl, _, _, rfl, _⟩ | ⟨rfl, b, rfl⟩
  · obtain ⟨make, plain, hmake⟩ := alone_comparison hc
    rw [hmake] at h
    obtain ⟨a, _, rfl⟩ := map_eq_ok_iff.1 h
    simp [plain] at ho
  · exact hm named
  · simp only [alone, if_true, bind_eq_ok_iff] at h
    obtain ⟨a, _, b, _, ⟨⟩⟩ := h
    cases ho
  · cases h
    cases ho

theorem isReadable_iff {field : String} {member : String × Json} :
    IsReadable field member ↔ IsApplied member.1 member.2 ∨
      member.1 = "$chunk" ∧ ∃ c, Chunking.decode member.2 = .ok c := by
  obtain ⟨op, v⟩ := member
  by_cases hc : op = "$chunk"
  · subst hc
    have none : ¬ IsApplied "$chunk" v := by simp [isApplied_iff, comparisons, memberships]
    simp [isReadable_chunk, none]
  · simp [isReadable_of_ne hc, exists_alone_iff, hc]

end FieldOp

namespace OpsRead

open FieldOp (IsReadable memberships isMembership)

variable {field : String} {ms : Members}

/-- Of members that can all be read, a chunking is read just if one asks for it. -/
theorem chunking_foldl_after_eq_none_iff {r : OpsRead}
    (h : ∀ member ∈ ms, IsReadable field member) :
    (ms.foldl (after field) r).chunking = none ↔
      r.chunking = none ∧ ∀ member ∈ ms, member.1 ≠ "$chunk" := by
  induction ms generalizing r with
  | nil => simp
  | cons member ms ih =>
    obtain ⟨op, v⟩ := member
    rw [List.foldl_cons, ih fun m hm => h m (by simp [hm]), List.forall_mem_cons, ← and_assoc]
    refine and_congr_left fun _ => ?_
    by_cases hc : op = "$chunk"
    · subst hc
      obtain ⟨c, hd⟩ := FieldOp.isReadable_chunk.1 (h ("$chunk", v) (by simp))
      simp [hd]
    · rw [after_of_ne hc]
      cases (FieldOp.alone field (op, v)).toOption <;> simp [push, hc]

theorem chunking_ofMembers_eq_none_iff (h : ∀ member ∈ ms, IsReadable field member) :
    (ofMembers field ms).chunking = none ↔ ∀ member ∈ ms, member.1 ≠ "$chunk" := by
  rw [ofMembers, chunking_foldl_after_eq_none_iff h]
  simp

/-- Of members that can all be read, a membership test is read just if one is named. -/
theorem any_isMembership_ofMembers_iff (h : ∀ member ∈ ms, IsReadable field member) :
    (ofMembers field ms).ops.any isMembership = true ↔
      ∃ member ∈ ms, member.1 ∈ memberships := by
  simp only [ops_ofMembers, List.any_eq_true, List.mem_filterMap, toOption_eq_some_iff]
  constructor
  · rintro ⟨o, ⟨member, hm, ho⟩, listed⟩
    exact ⟨member, hm, (FieldOp.isMembership_of_alone ho).1 listed⟩
  · rintro ⟨member, hm, named⟩
    have hc : member.1 ≠ "$chunk" := fun hc => absurd (hc ▸ named) (by decide)
    obtain ⟨o, ho⟩ := (FieldOp.isReadable_of_ne hc).1 (h member hm)
    exact ⟨o, ⟨member, hm, ho⟩, (FieldOp.isMembership_of_alone ho).2 named⟩

end OpsRead

/-- The strict policy reads the operator objects of the grammar. -/
theorem FieldOp.exists_ofMembers_reject_iff {field : String} {ms : Members} :
    (∃ ops, ofMembers .reject field ms = .ok ops) ↔ ms.AreOperators := by
  simp only [ofMembers_eq_ok_iff, true_or, forall_const, exists_and_left, exists_eq', and_true]
  constructor
  · rintro ⟨each, beside⟩ member hm
    rcases isReadable_iff.1 (each member hm) with applied | ⟨hc, decodes⟩
    · exact .inl applied
    · refine .inr ⟨hc, decodes, ?_⟩
      rcases beside with unchunked | listed
      · exact absurd hc ((OpsRead.chunking_ofMembers_eq_none_iff each).1 unchunked member hm)
      · exact (OpsRead.any_isMembership_ofMembers_iff each).1 listed
  · intro h
    have each : ∀ member ∈ ms, IsReadable field member := fun member hm =>
      isReadable_iff.2 ((h member hm).imp_right fun ⟨hc, decodes, _⟩ => ⟨hc, decodes⟩)
    refine ⟨each, ?_⟩
    rw [OpsRead.chunking_ofMembers_eq_none_iff each, OpsRead.any_isMembership_ofMembers_iff each]
    by_cases hc : ∃ member ∈ ms, member.1 = "$chunk"
    · obtain ⟨member, hm, hc⟩ := hc
      rcases h member hm with applied | ⟨_, _, listed⟩
      · simp [hc, isApplied_iff, comparisons, memberships] at applied
      · exact .inr listed
    · exact .inl fun member hm hc' => hc ⟨member, hm, hc'⟩

/-! ## Documents -/

/-- The test of a field is a literal or an operator object. -/
theorem FieldTest.exists_ofJson_reject_iff {field : String} {v : Json} :
    (∃ t, FieldTest.ofJson .reject field v = .ok t) ↔
      v.IsLiteral ∨ ∃ ms, v = .object ms ∧ Members.AreOperators ms := by
  cases v with
  | null => exact iff_of_true ⟨_, rfl⟩ (.inl .null)
  | object ms =>
    have noLiteral : ¬ (Json.object ms).IsLiteral := nofun
    rw [FieldTest.ofJson, exists_map_eq_ok_iff, FieldOp.exists_ofMembers_reject_iff]
    simp [noLiteral]
  | bool | number | string | array =>
    simp [FieldTest.ofJson, Value.exists_ofJson_iff]

namespace Json

theorem isFilter_object {ms : Members} :
    (Json.object ms).IsFilter ↔ ∀ member ∈ ms, IsEntry member.1 member.2 :=
  ⟨fun | .object each => each, .object⟩

theorem isEntry_iff {key : String} {v : Json} : IsEntry key v ↔
    ((key = "$and" ∨ key = "$or") ∧ ∃ items, v = .array items ∧ ∀ w ∈ items, w.IsFilter) ∨
    (key = "$not" ∧ v.IsFilter) ∨ (key = "$raw" ∧ ∃ fragment, v = .string fragment) ∨
    isReserved key = false ∧ (v.IsLiteral ∨ ∃ ms, v = .object ms ∧ Members.AreOperators ms) := by
  simp only [isReserved_eq_false_iff]
  constructor
  · rintro (⟨named, each⟩ | inner | fragment | ⟨plain, literal⟩ | ⟨plain, each⟩)
    · exact .inl ⟨named, _, rfl, each⟩
    · exact .inr (.inl ⟨rfl, inner⟩)
    · exact .inr (.inr (.inl ⟨rfl, fragment, rfl⟩))
    · exact .inr (.inr (.inr ⟨plain, .inl literal⟩))
    · exact .inr (.inr (.inr ⟨plain, .inr ⟨_, rfl, each⟩⟩))
  · rintro (⟨named, _, rfl, each⟩ | ⟨rfl, inner⟩ | ⟨rfl, fragment, rfl⟩ |
      ⟨plain, literal | ⟨_, rfl, each⟩⟩)
    · exact .combinator named each
    · exact .not inner
    · exact .raw fragment
    · exact .literal plain literal
    · exact .operators plain each

end Json

theorem Filter.exists_ofItems_reject_iff {items : List Json}
    (h : ∀ w ∈ items, (∃ f, Filter.ofJson .reject w = .ok f) ↔ w.IsFilter) :
    (∃ fs, Filter.ofItems .reject items = .ok fs) ↔ ∀ w ∈ items, w.IsFilter := by
  rw [Filter.ofItems_eq_gather, Policy.exists_gather_reject_iff]
  exact forall₂_congr h

theorem Entry.exists_ofJunction_reject_iff {make : List Filter → Entry} {name : String}
    {v : Json} (h : ∀ items, v = .array items → ∀ w ∈ items,
      (∃ f, Filter.ofJson .reject w = .ok f) ↔ w.IsFilter) :
    (∃ e, Entry.ofJunction .reject make name v = .ok e) ↔
      ∃ items, v = .array items ∧ ∀ w ∈ items, w.IsFilter := by
  cases v with
  | array items =>
    rw [Entry.ofJunction, exists_map_eq_ok_iff, Filter.exists_ofItems_reject_iff (h items rfl)]
    simp only [Json.array.injEq, exists_eq_left']
  | null | bool | number | string | object => simp [Entry.ofJunction]

/-- A member of a document is read just if it is of the grammar, if that is so for the
documents in it. -/
theorem Entry.exists_ofMember_reject_iff {key : String} {v : Json}
    (inner : (∃ f, Filter.ofJson .reject v = .ok f) ↔ v.IsFilter)
    (items : ∀ items, v = .array items → ∀ w ∈ items,
      (∃ f, Filter.ofJson .reject w = .ok f) ↔ w.IsFilter) :
    (∃ e, Entry.ofMember .reject (key, v) = .ok e) ↔ Json.IsEntry key v := by
  rw [Json.isEntry_iff]
  induction key using Entry.key_cases with
  | all | any => simp [Entry.exists_ofJunction_reject_iff items, isReserved]
  | not => simp [inner, isReserved]
  | raw => cases v <;> simp [Entry.ofLeaf, isReserved]
  | unknown key reserved other =>
    rw [Entry.ofMember_unknown reserved other]
    simp only [List.mem_cons, List.not_mem_nil, or_false, not_or] at other
    simp [other, reserved]
  | field key plain =>
    have none : key ∉ ["$and", "$or", "$not", "$raw"] := notMem_of_head_ne plain (by decide)
    simp only [List.mem_cons, List.not_mem_nil, or_false, not_or] at none
    simp [Entry.ofMember_field plain, isReserved_eq_false_iff.2 plain, none,
      FieldTest.exists_ofJson_reject_iff]

/-- The strict policy reads the documents of the grammar. -/
theorem Filter.exists_ofJson_reject_iff (doc : Json) :
    (∃ f, Filter.ofJson .reject doc = .ok f) ↔ doc.IsFilter := by
  -- a combinator reads the elements of its array, so they are part of the induction
  suffices h : ((∃ f, Filter.ofJson .reject doc = .ok f) ↔ doc.IsFilter) ∧
      ∀ items, doc = .array items → ∀ w ∈ items,
        (∃ f, Filter.ofJson .reject w = .ok f) ↔ w.IsFilter from h.1
  induction doc with
  | null => exact ⟨iff_of_true ⟨_, rfl⟩ .null, nofun⟩
  | bool | number | string => exact ⟨iff_of_false nofun nofun, nofun⟩
  | array vs ih =>
    refine ⟨iff_of_false nofun nofun, ?_⟩
    rintro _ ⟨⟩ w hw
    exact (ih w hw).1
  | object ms ih =>
    refine ⟨?_, nofun⟩
    rw [Filter.ofJson, Filter.ofMembers_eq_gather, Policy.exists_gather_reject_iff,
      Json.isFilter_object]
    exact forall₂_congr fun member hm =>
      Entry.exists_ofMember_reject_iff (ih member hm).1 (ih member hm).2

/-- A document gives a filter just if it is of the grammar, and any other is refused as
an invalid filter. -/
theorem Filter.exists_parse_reject_iff (doc : Json) :
    ((∃ f, Filter.parse .reject doc = .ok f) ↔ doc.IsFilter) ∧
      ((∃ fault, Filter.parse .reject doc = .error (.invalidFilter fault)) ↔ ¬ doc.IsFilter) := by
  rw [← Filter.exists_ofJson_reject_iff, Filter.parse]
  cases Filter.ofJson .reject doc <;> simp

end FilterQuery

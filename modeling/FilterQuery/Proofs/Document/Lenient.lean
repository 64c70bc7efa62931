import FilterQuery.Proofs.Document.Grammar
import Mathlib.Data.List.Basic

/-!
# Lenient reading

Under the lenient policy a part of a document that cannot be read is left out, and
the other parts are read as if it were not there. Main statement: the entries of an
object, the filters of a combinator and the operators of a field are those that the
parts give by themselves, with one exception. Two bounds that are not both literals
take the whole test of the field with them.
-/

namespace FilterQuery

namespace FieldOp

/-- The operators that a member gives if it is the only one of its object. -/
def contribution (field : String) (member : String × Json) : List FieldOp :=
  (ofMembers .ignore field [member]).toOption.getD []

/-- A member by itself asks for no chunking. -/
theorem unmarked_of_alone {field op : String} {v : Json} {o : FieldOp}
    (h : alone field (op, v) = .ok o) : o.unmarked = o := by
  cases ho : o.isMembership with
  | false => exact unmarked_of_not_isMembership ho
  | true =>
    obtain ⟨make, listed, hmake⟩ := alone_membership ((isMembership_of_alone h).1 ho)
    rw [hmake] at h
    obtain ⟨m, hm, rfl⟩ := map_eq_ok_iff.1 h
    cases v with
    | array items =>
      obtain ⟨vs, _, rfl⟩ := map_eq_ok_iff.1 hm
      rcases listed with rfl | rfl <;> rfl
    | null | bool | number | string | object => cases hm

end FieldOp

namespace OpsRead

variable {field : String} {ms : Members}

@[simp]
theorem map_unmarked_marked (r : OpsRead) :
    r.marked.map FieldOp.unmarked = r.ops.map FieldOp.unmarked := by
  unfold marked
  cases r.chunking with
  | none => rfl
  | some c => simp [Function.comp_def, FieldOp.unmarked_chunked]

/-- Apart from chunkings, the operators of an object are those of its members. -/
theorem map_unmarked_marked_ofMembers (ms : Members) :
    (ofMembers field ms).marked.map FieldOp.unmarked =
      ms.flatMap fun member => (FieldOp.alone field member).toOption.toList := by
  have each : ∀ op ∈ ms.filterMap fun member => (FieldOp.alone field member).toOption,
      op.unmarked = id op := by
    intro op h
    obtain ⟨⟨name, v⟩, _, read⟩ := List.mem_filterMap.1 h
    exact FieldOp.unmarked_of_alone (toOption_eq_some_iff.1 read)
  rw [map_unmarked_marked, ops_ofMembers, List.map_congr_left each, List.map_id,
    List.filterMap_eq_flatMap_toList]

/-- A single member gives its operator, or nothing. -/
theorem marked_ofMembers_singleton (member : String × Json) :
    (ofMembers field [member]).marked = (FieldOp.alone field member).toOption.toList := by
  obtain ⟨op, v⟩ := member
  rw [ofMembers, List.foldl_cons, List.foldl_nil]
  by_cases hc : op = "$chunk"
  · subst hc
    rw [FieldOp.alone_chunk, after_chunk, marked]
    cases Chunking.decode v <;> rfl
  · rw [after_of_ne hc]
    cases (FieldOp.alone field (op, v)).toOption <;> rfl

end OpsRead

namespace FieldOp

variable {field : String} {ms : Members}

/-- Only bounds that are not both literals stop the lenient policy. -/
theorem ofMembers_ignore_eq_ok_iff {ops : List FieldOp} :
    ofMembers .ignore field ms = .ok ops ↔
      (∀ member ∈ ms, IsRange member → IsApplied member.1 member.2) ∧
        (OpsRead.ofMembers field ms).marked = ops := by
  have range : ∀ member, (IsRange member → IsReadable field member) ↔
      (IsRange member → IsApplied member.1 member.2) := by
    refine fun member => imp_congr_right fun hr => ?_
    rw [isReadable_iff, hr.1]
    simp
  simp [ofMembers_eq_ok_iff, range]

/-- The lenient policy fails on an operator object just if two bounds are not both
literals. -/
theorem exists_ofMembers_ignore_eq_error_iff :
    (∃ fault, ofMembers .ignore field ms = .error fault) ↔
      ∃ member ∈ ms, IsRange member ∧ ¬ IsApplied member.1 member.2 := by
  have passes : (∃ ops, ofMembers .ignore field ms = .ok ops) ↔
      ∀ member ∈ ms, IsRange member → IsApplied member.1 member.2 := by
    simp [ofMembers_ignore_eq_ok_iff]
  have either : (∃ fault, ofMembers .ignore field ms = .error fault) ↔
      ¬ ∃ ops, ofMembers .ignore field ms = .ok ops := by
    cases ofMembers .ignore field ms <;> simp
  rw [either, passes]
  simp only [Classical.not_forall, exists_prop]

theorem contribution_eq (field : String) (member : String × Json) :
    contribution field member = (alone field member).toOption.toList := by
  cases hr : ofMembers .ignore field [member] with
  | ok ops =>
    obtain ⟨_, rfl⟩ := ofMembers_ignore_eq_ok_iff.1 hr
    rw [contribution, hr, ← OpsRead.marked_ofMembers_singleton]
    rfl
  | error fault =>
    obtain ⟨_, hm, _, unapplied⟩ := exists_ofMembers_ignore_eq_error_iff.1 ⟨fault, hr⟩
    rw [List.mem_singleton.1 hm, ← exists_alone_iff field] at unapplied
    rw [contribution, hr]
    cases ha : alone field member with
    | ok op => exact absurd ⟨op, ha⟩ unapplied
    | error e => rfl

/-- A member that applies an operator contributes it, and any other nothing. -/
theorem contribution_cases (field : String) (member : String × Json) :
    IsApplied member.1 member.2 ∧ (∃ op, contribution field member = [op]) ∨
      ¬ IsApplied member.1 member.2 ∧ contribution field member = [] := by
  rw [contribution_eq, ← exists_alone_iff field]
  cases alone field member with
  | ok op => exact .inl ⟨⟨op, rfl⟩, op, rfl⟩
  | error e => exact .inr ⟨nofun, rfl⟩

end FieldOp

/-! ## Documents -/

/-- The filter that a document gives by itself, if it gives one. -/
def Filter.lenient? (doc : Json) : Option Filter :=
  (Filter.parse .ignore doc).toOption

theorem Filter.lenient?_eq (doc : Json) : lenient? doc = (ofJson .ignore doc).toOption := by
  rw [lenient?, Filter.parse, toOption_mapError]

/-- The entries that a member gives if it is the only one of its object. -/
def Entry.contribution (member : String × Json) : List Entry :=
  (Filter.lenient? (.object [member])).getD []

theorem Filter.parse_ignore_object (ms : Members) : Filter.parse .ignore (.object ms) =
    .ok (ms.filterMap fun member => (Entry.ofMember .ignore member).toOption) := by
  rw [Filter.parse, Filter.ofJson, Filter.ofMembers_eq_gather, Policy.gather_ignore]
  rfl

theorem Entry.contribution_eq (member : String × Json) :
    contribution member = (Entry.ofMember .ignore member).toOption.toList := by
  rw [contribution, Filter.lenient?, Filter.parse_ignore_object, List.filterMap_cons,
    List.filterMap_nil]
  cases (Entry.ofMember .ignore member).toOption <;> rfl

/-- The entries of an object are those of its members. -/
theorem Filter.parse_ignore_object_eq_flatMap (ms : Members) :
    Filter.parse .ignore (.object ms) = .ok (ms.flatMap Entry.contribution) := by
  rw [Filter.parse_ignore_object, List.filterMap_eq_flatMap_toList, funext Entry.contribution_eq]

/-- The entry of a field goes with its operator object. -/
theorem Filter.parse_ignore_operators {field : String} (plain : field.toList.head? ≠ some '$')
    (ms : Members) : Filter.parse .ignore (.object [(field, .object ms)]) =
      .ok ((FieldOp.ofMembers .ignore field ms).toOption.map fun ops =>
        Entry.field field (.ops ops)).toList := by
  rw [Filter.parse_ignore_object, List.filterMap_cons, List.filterMap_nil,
    Entry.ofMember_field plain, FieldTest.ofJson]
  cases FieldOp.ofMembers .ignore field ms <;> rfl

/-- The filters of a combinator are those of its elements. -/
theorem Filter.parse_ignore_junction {name : String} {make : List Filter → Entry}
    (joins : ∀ v, Entry.ofMember .ignore (name, v) = Entry.ofJunction .ignore make name v)
    (items : List Json) : Filter.parse .ignore (.object [(name, .array items)]) =
      .ok [make (items.filterMap Filter.lenient?)] := by
  rw [Filter.parse_ignore_object, List.filterMap_cons, List.filterMap_nil, joins,
    Entry.ofJunction, Filter.ofItems_eq_gather, Policy.gather_ignore, funext Filter.lenient?_eq]
  rfl

/-- Under the lenient policy an object has the entries of its members, a combinator the
filters of its elements, and an operator object, apart from chunkings, the operators of
its members, each part read by itself. The last holds just if the two bounds of every
range are literals: with bounds that are not, the entry of the field is left out. -/
theorem Filter.parse_ignore_by_parts {field : String} (plain : field.toList.head? ≠ some '$')
    (ms : Members) (items : List Json) :
    Filter.parse .ignore (.object ms) = .ok (ms.flatMap Entry.contribution) ∧
    Filter.parse .ignore (.object [("$and", .array items)]) =
      .ok [.all (items.filterMap Filter.lenient?)] ∧
    Filter.parse .ignore (.object [("$or", .array items)]) =
      .ok [.any (items.filterMap Filter.lenient?)] ∧
    ((∃ ops, Filter.parse .ignore (.object [(field, .object ms)]) = .ok [.field field (.ops ops)] ∧
        ops.map FieldOp.unmarked = ms.flatMap (FieldOp.contribution field)) ↔
      ∀ member ∈ ms, FieldOp.IsRange member → FieldOp.IsApplied member.1 member.2) ∧
    (Filter.parse .ignore (.object [(field, .object ms)]) = .ok [] ↔
      ∃ member ∈ ms, FieldOp.IsRange member ∧ ¬ FieldOp.IsApplied member.1 member.2) ∧
    ∀ member : String × Json,
      FieldOp.IsApplied member.1 member.2 ∧ (∃ op, FieldOp.contribution field member = [op]) ∨
        ¬ FieldOp.IsApplied member.1 member.2 ∧ FieldOp.contribution field member = [] := by
  refine ⟨Filter.parse_ignore_object_eq_flatMap ms, Filter.parse_ignore_junction (fun _ => rfl) _,
    Filter.parse_ignore_junction (fun _ => rfl) _, ?_, ?_, FieldOp.contribution_cases field⟩
  · rw [Filter.parse_ignore_operators plain]
    constructor
    · rintro ⟨ops, read, _⟩
      cases h : FieldOp.ofMembers .ignore field ms with
      | ok => exact (FieldOp.ofMembers_ignore_eq_ok_iff.1 h).1
      | error fault =>
        rw [h] at read
        cases read
    · intro literal
      rw [FieldOp.ofMembers_ignore_eq_ok_iff.2 ⟨literal, rfl⟩]
      refine ⟨_, rfl, ?_⟩
      rw [OpsRead.map_unmarked_marked_ofMembers, funext (FieldOp.contribution_eq field)]
  · rw [Filter.parse_ignore_operators plain, ← FieldOp.exists_ofMembers_ignore_eq_error_iff]
    cases FieldOp.ofMembers .ignore field ms <;> simp

/-- An operator object with an unknown operator, a comparison that holds no literal, and
beside them bounds, a list and a chunking. -/
def Members.patchy : Members :=
  [("$regex", .string "x"), ("$gte", .object []), ("$between", .array [.ofInt 0, .ofInt 9]),
    ("$in", .array [.string "1", .string "2"]), ("$chunk", .object [("size", .ofInt 2)])]

theorem Filter.parse_ignore_by_parts_patchy :
    "amount".toList.head? ≠ some '$' ∧
    (∀ member ∈ Members.patchy,
      FieldOp.IsRange member → FieldOp.IsApplied member.1 member.2) ∧
    ∃ ops, Filter.parse .ignore (.object [("amount", .object Members.patchy)]) =
        .ok [.field "amount" (.ops ops)] ∧
      ops.map FieldOp.unmarked =
        [.between (.int 0) (.int 9), .isIn { values := [.text "1", .text "2"] }] := by
  have plain : "amount".toList.head? ≠ some '$' := by decide
  have literal : ∀ member ∈ Members.patchy,
      FieldOp.IsRange member → FieldOp.IsApplied member.1 member.2 := by
    intro member hm hr
    simp only [Members.patchy, List.mem_cons, List.not_mem_nil, or_false] at hm
    rcases hm with rfl | rfl | rfl | rfl | rfl
    · exact absurd hr.1 (by decide)
    · exact absurd hr.1 (by decide)
    · exact .between (.number _) (.number _)
    · exact absurd hr.1 (by decide)
    · exact absurd hr.1 (by decide)
  obtain ⟨_, _, _, parts, _⟩ := Filter.parse_ignore_by_parts plain .patchy []
  exact ⟨plain, literal, parts.2 literal⟩

/-- An operator object with a comparison, and two bounds that are not both literals. -/
def Members.halfBounded : Members :=
  [("$gte", .ofInt 10), ("$between", .array [.object [], .ofInt 5])]

/-- Two bounds that are not both literals take a well-formed comparison with them, which
by itself is read. -/
theorem FieldOp.range_drops_others :
    Members.halfBounded.flatMap (contribution "amount") = [.gte (.int 10)] ∧
      Filter.parse .ignore (.object [("amount", .object [("$gte", .ofInt 10)])]) =
        .ok [.field "amount" (.ops [.gte (.int 10)])] ∧
      Filter.parse .ignore (.object [("amount", .object Members.halfBounded)]) = .ok [] ∧
      ¬ ∃ ops, Filter.parse .ignore (.object [("amount", .object Members.halfBounded)]) =
          .ok [.field "amount" (.ops ops)] ∧
        ops.map unmarked = Members.halfBounded.flatMap (contribution "amount") := by
  refine ⟨rfl, rfl, rfl, ?_⟩
  rintro ⟨ops, ⟨⟩, _⟩

end FilterQuery

import FilterQuery.Proofs.Codec.Clause
import FilterQuery.Proofs.Document.Grammar
import FilterQuery.Proofs.Filter.Shape
import Mathlib.Data.List.Forall2

/-!
# Filters written as documents

A filter is written as a document entry by entry: a combinator as the array of its
filters, a test as null, a literal or an object of its operators, and the chunking
of the membership tests as a member that may stand anywhere in that object. Main
statement: the document of a filter is read as the very same filter, whatever the
policy, provided that no object needs a key twice and that JSON holds the values.
-/

namespace FilterQuery

/-! ## Documents with distinct keys -/

/-- A document in which no object has a key twice. -/
inductive Json.IsProper : Json → Prop
  | null : IsProper .null
  | bool (b) : IsProper (.bool b)
  | number (n) : IsProper (.number n)
  | string (s) : IsProper (.string s)
  | array {items} (each : ∀ v ∈ items, IsProper v) : IsProper (.array items)
  | object {ms : Members} (distinct : (ms.map Prod.fst).Nodup)
      (each : ∀ member ∈ ms, IsProper member.2) : IsProper (.object ms)

theorem Json.isProper_ofInt (n : Int) : (Json.ofInt n).IsProper := by
  unfold Json.ofInt
  split
  · exact .number _
  · split
    · exact .number _
    · exact .null

theorem Chunking.isProper_encode (c : Chunking) : c.encode.IsProper := by
  have count : ∀ n, (encodeCount n).IsProper := by
    intro n
    cases n with
    | none => exact .null
    | some n => exact Json.isProper_ofInt _
  refine .object (by simp) ?_
  simpa using ⟨count c.size, count c.parallel⟩

/-! ## Values -/

namespace Value

/-- A value that JSON holds as it is: no date and no point in time is in it, and only
finite doubles. -/
inductive IsJson : Value → Prop
  | null : IsJson .null
  | bool (b) : IsJson (.bool b)
  | int (n) : IsJson (.int n)
  | double {d} (finite : d.isFinite = true) : IsJson (.double d)
  | text (s) : IsJson (.text s)
  | array {items} (each : ∀ v ∈ items, IsJson v) : IsJson (.array items)

mutual

/-- The document of a value. Dates and points in time are written as texts. -/
def document : Value → Json
  | .null => .null
  | .bool b => .bool b
  | .int n => .ofInt n.toInt
  | .double d => .ofDouble d
  | .text s => .string s
  | .date d => .string d.text
  | .timestamp t => .string t.millisText
  | .array items => .array (documents items)

/-- The documents of the elements of an array. -/
def documents : List Value → List Json
  | [] => []
  | v :: vs => document v :: documents vs

end

@[simp, grind =]
theorem documents_eq_map (vs : List Value) : documents vs = vs.map document := by
  induction vs with
  | nil => rfl
  | cons v vs ih => rw [documents, ih, List.map_cons]

theorem document_int (n : Int64) :
    ∃ h, document (.int n) = .number (.int n.toInt h) ∧ FitsSigned n.toInt := by
  have signed := fitsSigned_toInt n
  exact ⟨(fitsWord_iff _).2 (.inl signed), Json.ofInt_of_fitsWord _, signed⟩

theorem document_double {d : Double} (h : d.isFinite = true) :
    document (.double d) = .number (.double d h) := by
  rw [document, Json.ofDouble, Number.ofDouble?, dif_pos h]

@[simp]
theorem ofItems_map_document {vs : List Value} (h : ∀ v ∈ vs, ofJson v.document = .ok v) :
    ofItems (vs.map document) = .ok vs := by
  rw [ofItems_eq_gather]
  refine Policy.gather_eq_ok ?_
  rw [List.map_map]
  exact List.map_congr_left h

theorem IsJson.ofJson_document {v : Value} (h : v.IsJson) : ofJson v.document = .ok v := by
  induction h with
  | null | bool | text => rfl
  | int n =>
    obtain ⟨word, written, signed⟩ := document_int n
    rw [written, ofJson, ofNumber, if_pos signed, Int64.ofInt_toInt]
  | double finite =>
    rw [document_double finite]
    rfl
  | array _ ih => simp [document, ofJson, ofItems_map_document ih]

theorem isProper_documents {vs : List Value} (h : ∀ v ∈ vs, v.document.IsProper) :
    ∀ w ∈ documents vs, w.IsProper := by
  rw [documents_eq_map]
  simpa using h

theorem IsJson.isProper {v : Value} (h : v.IsJson) : v.document.IsProper := by
  induction h with
  | null => exact .null
  | bool b => exact .bool b
  | text s => exact .string s
  | int n =>
    obtain ⟨word, written, _⟩ := document_int n
    rw [written]
    exact .number _
  | double finite =>
    rw [document_double finite]
    exact .number _
  | array _ ih => exact .array (isProper_documents ih)

end Value

/-! ## Operators -/

namespace FieldOp

/-- The name of an operator in a document. -/
def name : FieldOp → String
  | eq _ => "$eq"
  | ne _ => "$ne"
  | gt _ => "$gt"
  | gte _ => "$gte"
  | lt _ => "$lt"
  | lte _ => "$lte"
  | like _ => "$like"
  | startsWith _ => "$startsWith"
  | endsWith _ => "$endsWith"
  | isIn _ => "$in"
  | notIn _ => "$nin"
  | between _ _ => "$between"
  | present _ => "$exists"

/-- What an operator is applied to, as a document. -/
def operand : FieldOp → Json
  | eq v | ne v | gt v | gte v | lt v | lte v => v.document
  | like s | startsWith s | endsWith s => .string s
  | isIn m | notIn m => .array (Value.documents m.values)
  | between low high => .array [low.document, high.document]
  | present b => .bool b

/-- The member that writes an operator; its chunking is written apart. -/
def member (op : FieldOp) : String × Json :=
  (op.name, op.operand)

/-- The values that an operator is applied to. -/
def values : FieldOp → List Value
  | eq v | ne v | gt v | gte v | lt v | lte v => [v]
  | like _ | startsWith _ | endsWith _ | present _ => []
  | isIn m | notIn m => m.values
  | between low high => [low, high]

def chunking? : FieldOp → Option Chunking
  | isIn m | notIn m => m.chunking
  | _ => none

/-- Operators with different names on values that JSON holds, the membership tests among
them all with the same chunking or all with none. -/
structure AreRegular (ops : List FieldOp) : Prop where
  distinct : (ops.map name).Nodup
  literal : ∀ op ∈ ops, ∀ v ∈ op.values, v.IsJson
  alike : ∃ chunking, ∀ op ∈ ops, op.isMembership = true → op.chunking? = chunking

/-- The members of an operator object: one for each operator, in order, and in any place
among them one for the chunking, if there is one. -/
inductive AreWritten (ops : List FieldOp) : Members → Prop
  | bare (none : ∀ op ∈ ops, op.chunking? = none) : AreWritten ops (ops.map member)
  | batched {before after : List FieldOp} {c : Chunking} {v : Json}
      (parts : before ++ after = ops) (mark : ∃ op ∈ ops, op.chunking? = some c)
      (decodes : Chunking.decode v = .ok c) (proper : v.IsProper) :
      AreWritten ops (before.map member ++ ("$chunk", v) :: after.map member)

/-- The members of an operator object, the one for the chunking at the end. -/
def members (ops : List FieldOp) : Members :=
  ops.map member ++ ((ops.findSome? chunking?).map fun c => ("$chunk", c.encode)).toList

variable {field : String} {op : FieldOp} {ops : List FieldOp} {ms : Members}

theorem name_ne_chunk (op : FieldOp) : op.name ≠ "$chunk" := by
  cases op <;> simp [name]

theorem unmarked_of_chunking?_eq_none (h : op.chunking? = none) : op.unmarked = op := by
  cases op with
  | isIn m | notIn m =>
    obtain ⟨values, chunking⟩ := m
    cases h
    rfl
  | _ => rfl

/-- A membership test gets its chunking back. -/
theorem chunked_unmarked {c : Chunking} (h : op.isMembership = true → op.chunking? = some c) :
    op.unmarked.chunked c = op := by
  cases op with
  | isIn m | notIn m =>
    obtain ⟨values, chunking⟩ := m
    cases h rfl
    rfl
  | _ => rfl

theorem alone_member (h : ∀ v ∈ op.values, v.IsJson) :
    alone field op.member = .ok op.unmarked := by
  cases op with
  | eq v | ne v | gt v | gte v | lt v | lte v =>
    have read := (h v (by simp [values])).ofJson_document
    simp [alone, member, name, operand, ofMember, read, unmarked]
  | like s | startsWith s | endsWith s | present b => rfl
  | isIn m | notIn m =>
    have read : Value.ofItems (m.values.map Value.document) = .ok m.values :=
      Value.ofItems_map_document fun v hv => (h v hv).ofJson_document
    simp [alone, member, name, operand, ofMember, membersOf, read, unmarked]
  | between low high =>
    have read_low := (h low (by simp [values])).ofJson_document
    have read_high := (h high (by simp [values])).ofJson_document
    simp [alone, member, name, operand, read_low, read_high, unmarked]

theorem isReadable_member (h : ∀ v ∈ op.values, v.IsJson) : IsReadable field op.member :=
  (isReadable_of_ne op.name_ne_chunk).2 ⟨_, alone_member h⟩

theorem filterMap_alone_member (h : ∀ op ∈ ops, ∀ v ∈ op.values, v.IsJson) :
    ((ops.map member).filterMap fun m => (alone field m).toOption) = ops.map unmarked := by
  induction ops with
  | nil => rfl
  | cons op ops ih =>
    rw [List.map_cons, List.filterMap_cons, alone_member (h op (by simp)),
      ih fun o ho => h o (by simp [ho])]
    rfl

@[simp]
theorem chunking_foldl_member (ops : List FieldOp) (r : OpsRead) :
    ((ops.map member).foldl (OpsRead.after field) r).chunking = r.chunking := by
  refine OpsRead.chunking_foldl_after ?_
  simp only [List.mem_map, forall_exists_index, and_imp, forall_apply_eq_imp_iff₂]
  exact fun op _ => op.name_ne_chunk

theorem AreWritten.isReadable (h : AreWritten ops ms) (field : String)
    (literal : ∀ op ∈ ops, ∀ v ∈ op.values, v.IsJson) : ∀ m ∈ ms, IsReadable field m := by
  have each : ∀ op ∈ ops, IsReadable field op.member := fun op hop =>
    isReadable_member (literal op hop)
  cases h with
  | bare none => simpa using each
  | @batched before after c v parts mark decodes proper =>
    subst parts
    simp only [List.mem_append, List.mem_cons, List.mem_map]
    rintro m (⟨op, hop, rfl⟩ | rfl | ⟨op, hop, rfl⟩)
    · exact each op (List.mem_append_left _ hop)
    · exact isReadable_chunk.2 ⟨c, decodes⟩
    · exact each op (List.mem_append_right _ hop)

theorem AreWritten.ops_eq (h : AreWritten ops ms)
    (literal : ∀ op ∈ ops, ∀ v ∈ op.values, v.IsJson) :
    (OpsRead.ofMembers field ms).ops = ops.map unmarked := by
  rw [OpsRead.ops_ofMembers]
  cases h with
  | bare none => exact filterMap_alone_member literal
  | @batched before after c v parts mark decodes proper =>
    subst parts
    rw [List.filterMap_append, List.filterMap_cons, alone_chunk, toOption_error,
      filterMap_alone_member fun op hop => literal op (List.mem_append_left _ hop),
      filterMap_alone_member fun op hop => literal op (List.mem_append_right _ hop),
      List.map_append]

/-- The chunking is found wherever it stands. -/
theorem AreWritten.chunking_cases (h : AreWritten ops ms) (field : String) :
    ((OpsRead.ofMembers field ms).chunking = none ∧ ∀ op ∈ ops, op.chunking? = none) ∨
      ∃ c, (OpsRead.ofMembers field ms).chunking = some c ∧
        ∃ op ∈ ops, op.chunking? = some c := by
  cases h with
  | bare none => exact .inl ⟨chunking_foldl_member ops {}, none⟩
  | @batched before after c v parts mark decodes proper =>
    refine .inr ⟨c, ?_, mark⟩
    rw [OpsRead.ofMembers, List.foldl_append, List.foldl_cons, chunking_foldl_member,
      OpsRead.after_chunk, decodes]
    rfl

theorem isMembership_of_chunking? {c : Chunking} (h : op.chunking? = some c) :
    op.isMembership = true := by
  cases op with
  | isIn | notIn => rfl
  | _ => cases h

@[simp]
theorem isMembership_unmarked (op : FieldOp) : op.unmarked.isMembership = op.isMembership := by
  cases op <;> rfl

/-- Operators are read back from their members, whatever the policy. -/
theorem AreWritten.ofMembers_eq_ok {policy : Policy} (h : AreWritten ops ms)
    (regular : AreRegular ops) : ofMembers policy field ms = .ok ops := by
  have readable := h.isReadable field regular.literal
  rw [ofMembers_eq_ok_iff, OpsRead.marked, h.ops_eq regular.literal]
  refine ⟨fun m hm _ => readable m hm, ?_⟩
  rcases h.chunking_cases field with ⟨chunking, none⟩ | ⟨c, chunking, op, hop, mark⟩
  · rw [chunking]
    have each : ∀ o ∈ ops, o.unmarked = id o := fun o ho =>
      unmarked_of_chunking?_eq_none (none o ho)
    refine ⟨fun _ => .inl rfl, ?_⟩
    rw [List.map_congr_left each, List.map_id]
  · rw [chunking]
    have listed := isMembership_of_chunking? mark
    refine ⟨fun _ => .inr ?_, ?_⟩
    · rw [List.any_map, List.any_eq_true]
      exact ⟨op, hop, (isMembership_unmarked op).trans listed⟩
    · -- every membership test has the chunking that one of them has
      obtain ⟨shared, alike⟩ := regular.alike
      have same : shared = some c := (alike op hop listed).symm.trans mark
      have each : ∀ o ∈ ops, (chunked c ∘ unmarked) o = id o := fun o ho =>
        chunked_unmarked fun hm => (alike o ho hm).trans same
      simp only [List.map_map]
      rw [List.map_congr_left each, List.map_id]

theorem isProper_operand (h : ∀ v ∈ op.values, v.IsJson) : op.operand.IsProper := by
  cases op with
  | eq v | ne v | gt v | gte v | lt v | lte v => exact (h v (by simp [values])).isProper
  | like s | startsWith s | endsWith s => exact .string s
  | present b => exact .bool b
  | isIn m | notIn m =>
    exact .array (Value.isProper_documents fun v hv => (h v hv).isProper)
  | between low high =>
    refine .array ?_
    simpa using ⟨(h low (by simp [values])).isProper, (h high (by simp [values])).isProper⟩

theorem AreWritten.isProper (h : AreWritten ops ms) (regular : AreRegular ops) :
    (Json.object ms).IsProper := by
  have each : ∀ op ∈ ops, op.member.2.IsProper := fun op hop =>
    isProper_operand (regular.literal op hop)
  cases h with
  | bare none =>
    refine .object ?_ (by simpa using each)
    rw [List.map_map]
    exact regular.distinct
  | @batched before after c v parts mark decodes proper =>
    subst parts
    refine .object ?_ ?_
    · have apart : "$chunk" ∉ (before ++ after).map name := by
        rw [List.mem_map]
        rintro ⟨op, _, hop⟩
        exact op.name_ne_chunk hop
      rw [List.map_append, List.map_cons, List.map_map, List.map_map,
        List.perm_middle.nodup_iff, ← List.map_append]
      exact List.nodup_cons.2 ⟨apart, regular.distinct⟩
    · simp only [List.mem_append, List.mem_cons, List.mem_map]
      rintro m (⟨op, hop, rfl⟩ | rfl | ⟨op, hop, rfl⟩)
      · exact each op (List.mem_append_left _ hop)
      · exact proper
      · exact each op (List.mem_append_right _ hop)

/-- The members of operators write them. -/
theorem areWritten_members (ops : List FieldOp) : AreWritten ops (members ops) := by
  rw [members]
  cases h : ops.findSome? chunking? with
  | none =>
    rw [Option.map_none, Option.toList_none, List.append_nil]
    exact .bare (List.findSome?_eq_none_iff.1 h)
  | some c =>
    exact .batched (List.append_nil ops) (List.exists_of_findSome?_eq_some h) c.decode_encode
      c.isProper_encode

end FieldOp

/-! ## Tests -/

/-- A test that a document can say: a bare value is not null. -/
def FieldTest.IsRegular : FieldTest → Prop
  | .null => True
  | .value v => v.isNull = false ∧ v.IsJson
  | .ops list => FieldOp.AreRegular list

/-- The documents that say a test. -/
inductive FieldTest.IsWritten : FieldTest → Json → Prop
  | null : FieldTest.IsWritten .null .null
  | value (v) : FieldTest.IsWritten (.value v) v.document
  | ops {list ms} (said : FieldOp.AreWritten list ms) : FieldTest.IsWritten (.ops list) (.object ms)

def FieldTest.document : FieldTest → Json
  | .null => .null
  | .value v => v.document
  | .ops list => .object (FieldOp.members list)

theorem FieldTest.isWritten_document (t : FieldTest) : t.IsWritten t.document := by
  cases t with
  | null => exact .null
  | value v => exact .value v
  | ops list => exact .ops (FieldOp.areWritten_members list)

/-- A bare value is told apart from null and from an operator object. -/
theorem FieldTest.ofJson_value {policy : Policy} {field : String} {v : Value}
    (some : v.isNull = false) (literal : v.IsJson) :
    FieldTest.ofJson policy field v.document = .ok (.value v) := by
  have read := literal.ofJson_document
  cases literal with
  | null => cases some
  | bool | text => rfl
  | int n =>
    obtain ⟨word, written, _⟩ := Value.document_int n
    rw [written] at read ⊢
    exact congrArg (Except.map FieldTest.value) read
  | double finite =>
    rw [Value.document_double finite]
    rfl
  | array =>
    rw [Value.document] at read ⊢
    exact congrArg (Except.map FieldTest.value) read

theorem FieldTest.IsWritten.ofJson_eq_ok {t : FieldTest} {doc : Json} {policy : Policy}
    {field : String} (h : t.IsWritten doc) (regular : t.IsRegular) :
    FieldTest.ofJson policy field doc = .ok t := by
  cases h with
  | null => rfl
  | value v => exact FieldTest.ofJson_value regular.1 regular.2
  | ops said => rw [FieldTest.ofJson, said.ofMembers_eq_ok regular, map_ok]

theorem FieldTest.IsWritten.isProper {t : FieldTest} {doc : Json} (h : t.IsWritten doc)
    (regular : t.IsRegular) : doc.IsProper := by
  cases h with
  | null => exact .null
  | value v => exact regular.2.isProper
  | ops said => exact said.isProper regular

/-! ## Entries -/

/-- The key of an entry in a document. -/
def Entry.name : Entry → String
  | .all _ => "$and"
  | .any _ => "$or"
  | .not _ => "$not"
  | .raw _ => "$raw"
  | .field key _ => key

/-- An entry that a document can say: at every level no two entries have one name, and
no field is named like a combinator. -/
inductive Entry.IsRegular : Entry → Prop
  | all {filters} (distinct : ∀ f ∈ filters, (f.map Entry.name).Nodup)
      (parts : ∀ f ∈ filters, ∀ e ∈ f, IsRegular e) : IsRegular (.all filters)
  | any {filters} (distinct : ∀ f ∈ filters, (f.map Entry.name).Nodup)
      (parts : ∀ f ∈ filters, ∀ e ∈ f, IsRegular e) : IsRegular (.any filters)
  | not {filter} (distinct : (filter.map Entry.name).Nodup)
      (parts : ∀ e ∈ filter, IsRegular e) : IsRegular (.not filter)
  | raw (fragment) : IsRegular (.raw fragment)
  | field {key test} (plain : key.toList.head? ≠ some '$') (said : test.IsRegular) :
      IsRegular (.field key test)

/-- A filter that a document can say. -/
structure Filter.IsRegular (f : Filter) : Prop where
  distinct : (f.map Entry.name).Nodup
  parts : ∀ e ∈ f, e.IsRegular

mutual

/-- The documents that say a filter, entry by entry. -/
inductive Filter.IsWritten : Filter → Json → Prop
  | object {f : Filter} {ms : Members} (each : List.Forall₂ Entry.IsWritten f ms) :
      Filter.IsWritten f (.object ms)

/-- The members that say an entry. -/
inductive Entry.IsWritten : Entry → String × Json → Prop
  | all {filters docs} (each : List.Forall₂ Filter.IsWritten filters docs) :
      Entry.IsWritten (.all filters) ("$and", .array docs)
  | any {filters docs} (each : List.Forall₂ Filter.IsWritten filters docs) :
      Entry.IsWritten (.any filters) ("$or", .array docs)
  | not {filter doc} (inner : Filter.IsWritten filter doc) :
      Entry.IsWritten (.not filter) ("$not", doc)
  | raw (fragment) : Entry.IsWritten (.raw fragment) ("$raw", .string fragment)
  | field {key test doc} (said : FieldTest.IsWritten test doc) :
      Entry.IsWritten (.field key test) (key, doc)

end

mutual

/-- The member of an entry in a document. -/
def Entry.member : Entry → String × Json
  | .all filters => ("$and", .array (Filter.documents filters))
  | .any filters => ("$or", .array (Filter.documents filters))
  | .not filter => ("$not", .object (Filter.members filter))
  | .raw fragment => ("$raw", .string fragment)
  | .field key test => (key, test.document)

/-- The members of a filter, one for each entry. -/
def Filter.members : Filter → Members
  | [] => []
  | e :: es => Entry.member e :: Filter.members es

/-- The documents of filters that stand side by side. -/
def Filter.documents : List Filter → List Json
  | [] => []
  | f :: fs => .object (Filter.members f) :: Filter.documents fs

end

/-- The document of a filter. -/
def Filter.document (f : Filter) : Json :=
  .object f.members

/-! ## Every filter is written by its document -/

@[simp, grind =]
theorem Filter.members_eq_map (f : Filter) : f.members = f.map Entry.member := by
  induction f with
  | nil => rfl
  | cons e es ih => rw [Filter.members, ih, List.map_cons]

@[simp, grind =]
theorem Filter.documents_eq_map (fs : List Filter) :
    Filter.documents fs = fs.map Filter.document := by
  induction fs with
  | nil => rfl
  | cons f fs ih => rw [Filter.documents, ih, List.map_cons, Filter.document]

theorem Filter.isWritten_document_of_forall {f : Filter}
    (each : ∀ e ∈ f, e.IsWritten e.member) : f.IsWritten f.document := by
  refine .object ?_
  rw [Filter.members_eq_map, List.forall₂_map_right_iff]
  exact List.forall₂_same.2 each

theorem Filter.forall₂_documents_of_forall {fs : List Filter}
    (each : ∀ f ∈ fs, ∀ e ∈ f, e.IsWritten e.member) :
    List.Forall₂ Filter.IsWritten fs (Filter.documents fs) := by
  rw [Filter.documents_eq_map, List.forall₂_map_right_iff]
  exact List.forall₂_same.2 fun f hf => Filter.isWritten_document_of_forall (each f hf)

theorem Entry.isWritten_member (e : Entry) : e.IsWritten e.member := by
  induction e with
  | all filters ih => exact .all (Filter.forall₂_documents_of_forall ih)
  | any filters ih => exact .any (Filter.forall₂_documents_of_forall ih)
  | not filter ih => exact .not (Filter.isWritten_document_of_forall ih)
  | raw fragment => exact .raw fragment
  | field key test => exact .field test.isWritten_document

/-- The document of a filter says the filter. -/
theorem Filter.isWritten_document (f : Filter) : f.IsWritten f.document :=
  Filter.isWritten_document_of_forall fun e _ => e.isWritten_member

/-! ## What is written is read -/

/-- A member that has the key of an entry and is read as that entry. -/
structure Entry.IsReadFrom (e : Entry) (member : String × Json) : Prop where
  key : member.1 = e.name
  proper : member.2.IsProper
  read : ∀ policy, Entry.ofMember policy member = .ok e

/-- A document that is read as a filter. -/
structure Filter.IsReadFrom (f : Filter) (doc : Json) : Prop where
  proper : doc.IsProper
  read : ∀ policy, Filter.ofJson policy doc = .ok f

theorem forall₂_imp_of_mem {α β : Type} {R S : α → β → Prop} {as : List α} {bs : List β}
    (h : List.Forall₂ R as bs) (each : ∀ a ∈ as, ∀ b, R a b → S a b) : List.Forall₂ S as bs :=
  ((List.forall₂_and_left as bs).2 ⟨each, h⟩).imp fun _ b ⟨imp, r⟩ => imp b r

theorem forall_mem_of_forall₂ {α β : Type} {p : β → Prop} {as : List α} {bs : List β}
    (h : List.Forall₂ (fun _ b => p b) as bs) : ∀ b ∈ bs, p b := by
  induction h with
  | nil => simp
  | cons first _ ih => exact List.forall_mem_cons.2 ⟨first, ih⟩

theorem map_eq_map_of_forall₂ {α β γ : Type} {g : β → γ} {h : α → γ} {as : List α} {bs : List β}
    (each : List.Forall₂ (fun a b => g b = h a) as bs) : bs.map g = as.map h := by
  rw [← List.forall₂_eq_eq_eq, List.forall₂_map_left_iff, List.forall₂_map_right_iff]
  exact each.flip

theorem Filter.isReadFrom_of_forall {f : Filter} {doc : Json} (h : f.IsWritten doc)
    (distinct : (f.map Entry.name).Nodup)
    (each : ∀ e ∈ f, ∀ member, e.IsWritten member → e.IsReadFrom member) :
    f.IsReadFrom doc := by
  cases h with
  | @object _ ms written =>
    have read := forall₂_imp_of_mem written each
    constructor
    · refine .object ?_ (forall_mem_of_forall₂ (read.imp fun _ _ r => r.proper))
      rwa [map_eq_map_of_forall₂ (read.imp fun _ _ r => r.key)]
    · intro policy
      rw [Filter.ofJson, Filter.ofMembers_eq_gather]
      exact Policy.gather_eq_ok (map_eq_map_of_forall₂ (read.imp fun _ _ r => r.read policy))

/-- The array of a combinator is read as the filters that it joins. -/
theorem Entry.ofJunction_eq_ok_of_forall (make : List Filter → Entry) (name : String)
    {filters : List Filter} {docs : List Json}
    (written : List.Forall₂ Filter.IsWritten filters docs)
    (distinct : ∀ f ∈ filters, (f.map Entry.name).Nodup)
    (each : ∀ f ∈ filters, ∀ e ∈ f, ∀ member, e.IsWritten member → e.IsReadFrom member) :
    (Json.array docs).IsProper ∧
      ∀ policy, Entry.ofJunction policy make name (.array docs) = .ok (make filters) := by
  have read : List.Forall₂ Filter.IsReadFrom filters docs :=
    forall₂_imp_of_mem written fun f hf doc hdoc =>
      Filter.isReadFrom_of_forall hdoc (distinct f hf) (each f hf)
  refine ⟨.array (forall_mem_of_forall₂ (read.imp fun _ _ r => r.proper)), ?_⟩
  intro policy
  have items : Filter.ofItems policy docs = .ok filters := by
    rw [Filter.ofItems_eq_gather]
    exact Policy.gather_eq_ok (map_eq_map_of_forall₂ (read.imp fun _ _ r => r.read policy))
  rw [Entry.ofJunction, items, map_ok]

/-- A member that writes a regular entry is read as that entry. -/
theorem Entry.IsRegular.isReadFrom {e : Entry} (h : e.IsRegular) (member : String × Json)
    (hw : e.IsWritten member) : e.IsReadFrom member := by
  -- on the regularity of the entry, whichever member writes it: the relation between filters
  -- and documents is mutual, and has no induction of its own here
  induction h generalizing member with
  | all distinct _ ih =>
    cases hw with
    | all written =>
      obtain ⟨proper, read⟩ := Entry.ofJunction_eq_ok_of_forall .all "$and" written distinct ih
      exact ⟨rfl, proper, read⟩
  | any distinct _ ih =>
    cases hw with
    | any written =>
      obtain ⟨proper, read⟩ := Entry.ofJunction_eq_ok_of_forall .any "$or" written distinct ih
      exact ⟨rfl, proper, read⟩
  | not distinct _ ih =>
    cases hw with
    | not inner =>
      obtain ⟨proper, read⟩ := Filter.isReadFrom_of_forall inner distinct ih
      refine ⟨rfl, proper, fun policy => ?_⟩
      simp [read]
  | raw fragment =>
    cases hw with
    | raw => exact ⟨rfl, .string fragment, fun _ => rfl⟩
  | field plain regular =>
    cases hw with
    | field said =>
      refine ⟨rfl, said.isProper regular, fun policy => ?_⟩
      rw [Entry.ofMember_field plain, said.ofJson_eq_ok regular, map_ok]

/-- A regular filter has a document, and every document that says it, with the chunkings
in any place, has distinct keys and is read as that very filter under either policy. -/
theorem Filter.parse_isWritten (f : Filter) (h : f.IsRegular) :
    f.IsWritten f.document ∧ ∀ doc, f.IsWritten doc →
      doc.IsProper ∧ ∀ policy, Filter.parse policy doc = .ok f := by
  refine ⟨f.isWritten_document, fun doc hdoc => ?_⟩
  obtain ⟨proper, read⟩ :=
    Filter.isReadFrom_of_forall hdoc h.distinct fun e he => (h.parts e he).isReadFrom
  refine ⟨proper, fun policy => ?_⟩
  rw [Filter.parse, read, mapError_ok]

/-- A filter with every shape of test, a chunking, and combinators around filters, one
of which is empty. -/
def Filter.manifold : Filter :=
  [.field "stage" (.value (.array [.text "Won", .null])), .field "owner" .null,
    .field "id" (.ops [.ne .null,
      .isIn { values := [.text "1", .text "2"], chunking := some { size := some 200 } },
      .between (.int (-1)) (.double ⟨0x3FF8000000000000⟩)]),
    .any [[.field "stage" (.ops [.like "A%"]), .raw "IsWon = true"], []],
    .not [.field "stage" (.ops [])]]

/-- Its document, with the chunking ahead of the operators. -/
def Filter.manifoldDocument : Json :=
  .object [("stage", .array [.string "Won", .null]), ("owner", .null),
    ("id", .object [("$chunk", .object [("size", .ofInt 200)]), ("$ne", .null),
      ("$in", .array [.string "1", .string "2"]),
      ("$between", .array [.ofInt (-1), .ofDouble ⟨0x3FF8000000000000⟩])]),
    ("$or", .array [.object [("stage", .object [("$like", .string "A%")]),
      ("$raw", .string "IsWon = true")], .object []]),
    ("$not", .object [("stage", .object [])])]

theorem Filter.parse_isWritten_manifold :
    manifold.IsRegular ∧ manifold.IsWritten manifoldDocument ∧
      Filter.parse .reject manifoldDocument = .ok manifold ∧
      Filter.parse .ignore manifold.document = .ok manifold := by
  have stage : "stage".toList.head? ≠ some '$' := by decide
  have ids : FieldOp.AreRegular [.ne .null,
      .isIn { values := [.text "1", .text "2"], chunking := some { size := some 200 } },
      .between (.int (-1)) (.double ⟨0x3FF8000000000000⟩)] := by
    have finite : (Value.double ⟨0x3FF8000000000000⟩).IsJson := .double (by decide)
    refine ⟨by decide, ?_, some { size := some 200 }, ?_⟩
    · simp [FieldOp.values, Value.IsJson.null, Value.IsJson.text, Value.IsJson.int, finite]
    · simp [FieldOp.isMembership, FieldOp.chunking?]
  have pattern : FieldOp.AreRegular [.like "A%"] :=
    ⟨by decide, by simp [FieldOp.values], none, by simp [FieldOp.isMembership]⟩
  have empty : FieldOp.AreRegular [] := ⟨by decide, by simp, none, by simp⟩
  have regular : manifold.IsRegular := by
    refine ⟨by decide, ?_⟩
    simp only [manifold, List.forall_mem_cons]
    refine ⟨.field stage ⟨rfl, .array ?_⟩, .field (by decide) trivial, .field (by decide) ids,
      .any (by decide) ?_, .not (by decide) ?_, by simp⟩
    · simp [Value.IsJson.text, Value.IsJson.null]
    · simpa [Entry.IsRegular.raw] using .field stage pattern
    · simpa using .field stage empty
  have written : manifold.IsWritten manifoldDocument := by
    refine .object (.cons (.field (.value (.array [.text "Won", .null]))) (.cons (.field .null)
      (.cons (.field (.ops ?_)) (.cons (.any (.cons (.object (.cons (.field (.ops ?_))
        (.cons (.raw _) .nil))) (.cons (.object .nil) .nil)))
          (.cons (.not (.object (.cons (.field (.ops ?_)) .nil))) .nil)))))
    · refine FieldOp.AreWritten.batched (List.nil_append _)
        ⟨_, List.mem_cons_of_mem _ (List.mem_cons_self ..), rfl⟩ rfl (.object (by simp) ?_)
      simpa using Json.isProper_ofInt 200
    · exact .bare (by simp [FieldOp.chunking?])
    · exact .bare (by simp)
  obtain ⟨own, read⟩ := Filter.parse_isWritten manifold regular
  exact ⟨regular, written, (read _ written).2 .reject, (read _ own).2 .ignore⟩

end FilterQuery

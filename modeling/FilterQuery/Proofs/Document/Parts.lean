import FilterQuery.Filter.Document
import FilterQuery.Proofs.Result

/-!
# The parts of a filter document

Documents are read part by part: the members of an object, the elements of an
array, the operators of a field. Here the reading of a part is taken apart from what
the policy makes of a part that cannot be read. Main statements: the strict policy
reads all parts or fails, the lenient one reads those that can be read, and the
operators of a field are those of its members, provided that no member stops the
reading.
-/

namespace FilterQuery

/-! ## Lists of parts -/

namespace Policy

variable {α β : Type} {policy : Policy} {read : α → Except FilterFault β}

@[simp]
theorem keep_ignore (x : Except FilterFault α) : Policy.ignore.keep x = .ok x.toOption := by
  cases x <;> rfl

@[simp]
theorem keep_reject (x : Except FilterFault α) : Policy.reject.keep x = x.map some := by
  cases x <;> rfl

/-- A part that cannot be read fails under the strict policy only. -/
theorem map_keep_eq_ok_iff {x : Except FilterFault α} {f : Option α → β} {b : β} :
    (policy.keep x).map f = .ok b ↔
      (policy = .reject → ∃ a, x = .ok a) ∧ f x.toOption = b := by
  cases policy <;> cases x <;> simp

/-- Reads parts one after the other. -/
def gather (policy : Policy) (read : α → Except FilterFault β) :
    List α → Except FilterFault (List β)
  | [] => .ok []
  | a :: as => do
      let b ← policy.keep (read a)
      let bs ← policy.gather read as
      return b.toList ++ bs

/-- The lenient policy reads the parts that can be read. -/
@[simp]
theorem gather_ignore (as : List α) :
    Policy.ignore.gather read as = .ok (as.filterMap fun a => (read a).toOption) := by
  induction as with
  | nil => rfl
  | cons a as ih =>
    rw [gather, keep_ignore, ih, List.filterMap_cons]
    cases read a <;> rfl

/-- Whatever the policy, parts that can all be read are read. -/
theorem gather_eq_ok {as : List α} {bs : List β} (h : as.map read = bs.map .ok) :
    policy.gather read as = .ok bs := by
  induction as generalizing bs with
  | nil =>
    cases bs with
    | nil => rfl
    | cons b bs => cases h
  | cons a as ih =>
    cases bs with
    | nil => cases h
    | cons b bs =>
      obtain ⟨first, rest⟩ := List.cons.inj h
      rw [gather, first, ih rest]
      rfl

/-- The strict policy reads all parts or fails. -/
theorem exists_gather_reject_iff {as : List α} :
    (∃ bs, Policy.reject.gather read as = .ok bs) ↔ ∀ a ∈ as, ∃ b, read a = .ok b := by
  induction as with
  | nil => simp [gather]
  | cons a as ih =>
    rw [List.forall_mem_cons, ← ih, gather, keep_reject]
    cases read a with
    | error e => simp
    | ok b =>
      cases Policy.reject.gather read as <;>
        simp

end Policy

@[grind =]
theorem Value.ofItems_eq_gather (vs : List Json) :
    Value.ofItems vs = Policy.reject.gather Value.ofJson vs := by
  induction vs with
  | nil => rfl
  | cons v vs ih =>
    rw [Value.ofItems, ih, Policy.gather, Policy.keep_reject]
    cases Value.ofJson v <;> rfl

@[grind =]
theorem Filter.ofItems_eq_gather (policy : Policy) (vs : List Json) :
    Filter.ofItems policy vs = policy.gather (Filter.ofJson policy) vs := by
  induction vs with
  | nil => rfl
  | cons v vs ih => rw [Filter.ofItems, ih, Policy.gather]

/-- The entry of a combinator that joins filters. -/
def Entry.ofJunction (policy : Policy) (make : List Filter → Entry) (name : String) :
    Json → Except FilterFault Entry
  | .array items => (Filter.ofItems policy items).map make
  | _ => .error (.combinatorNotArray name)

/-- The entry that a member of a document stands for. -/
def Entry.ofMember (policy : Policy) (member : String × Json) : Except FilterFault Entry :=
  if member.1 = "$and" then Entry.ofJunction policy .all member.1 member.2
  else if member.1 = "$or" then Entry.ofJunction policy .any member.1 member.2
  else if member.1 = "$not" then (Filter.ofJson policy member.2).map .not
  else Entry.ofLeaf policy member.1 member.2

/-! ## Entries by their keys -/

theorem isReserved_eq_false_iff {key : String} :
    isReserved key = false ↔ key.toList.head? ≠ some '$' := by
  unfold isReserved
  cases key.toList with
  | nil => simp
  | cons c cs =>
    split
    · simp_all
    · rename_i other
      simpa using fun hc => other cs (by rw [hc])

/-- The keys of a document: those of the combinators, that of a raw fragment, other
reserved ones, and those of fields. -/
@[elab_as_elim]
theorem Entry.key_cases {P : String → Prop} (all : P "$and") (any : P "$or") (not : P "$not")
    (raw : P "$raw")
    (unknown : ∀ key, isReserved key = true → key ∉ ["$and", "$or", "$not", "$raw"] → P key)
    (field : ∀ key, key.toList.head? ≠ some '$' → P key) (key : String) : P key := by
  cases hk : isReserved key with
  | false => exact field key (isReserved_eq_false_iff.1 hk)
  | true =>
    by_cases named : key ∈ ["$and", "$or", "$not", "$raw"]
    · simp only [List.mem_cons, List.not_mem_nil, or_false] at named
      rcases named with rfl | rfl | rfl | rfl
      · exact all
      · exact any
      · exact not
      · exact raw
    · exact unknown key hk named

/-- The key of a field is none of the reserved ones. -/
theorem notMem_of_head_ne {key : String} {names : List String}
    (plain : key.toList.head? ≠ some '$') (reserved : names.all isReserved = true) :
    key ∉ names := by
  intro listed
  rw [← isReserved_eq_false_iff, List.all_eq_true.1 reserved key listed] at plain
  cases plain

namespace Entry

variable {policy : Policy} {key : String} {v : Json}

@[simp]
theorem ofMember_and : ofMember policy ("$and", v) = ofJunction policy .all "$and" v := rfl

@[simp]
theorem ofMember_or : ofMember policy ("$or", v) = ofJunction policy .any "$or" v := rfl

@[simp]
theorem ofMember_not : ofMember policy ("$not", v) = (Filter.ofJson policy v).map .not := rfl

@[simp]
theorem ofMember_raw : ofMember policy ("$raw", v) = ofLeaf policy "$raw" v := rfl

theorem ofMember_unknown (reserved : isReserved key = true)
    (h : key ∉ ["$and", "$or", "$not", "$raw"]) :
    ofMember policy (key, v) = .error (.unknownCombinator key) := by
  simp only [List.mem_cons, List.not_mem_nil, or_false, not_or] at h
  simp [ofMember, ofLeaf, h, reserved]

/-- A key that starts with no dollar sign names a field. -/
theorem ofMember_field (plain : key.toList.head? ≠ some '$') :
    ofMember policy (key, v) = (FieldTest.ofJson policy key v).map (.field key) := by
  have h : key ∉ ["$and", "$or", "$not", "$raw"] := notMem_of_head_ne plain (by decide)
  simp only [List.mem_cons, List.not_mem_nil, or_false, not_or] at h
  simp [ofMember, ofLeaf, h, isReserved_eq_false_iff.2 plain]

end Entry

/-! ## Lists of parts -/

theorem Filter.ofMembers_cons (policy : Policy) (member : String × Json) (ms : Members) :
    Filter.ofMembers policy (member :: ms) = do
      let entry ← policy.keep (Entry.ofMember policy member)
      let rest ← Filter.ofMembers policy ms
      return entry.toList ++ rest := by
  obtain ⟨key, v⟩ := member
  cases v <;> rfl

@[grind =]
theorem Filter.ofMembers_eq_gather (policy : Policy) (ms : Members) :
    Filter.ofMembers policy ms = policy.gather (Entry.ofMember policy) ms := by
  induction ms with
  | nil => rfl
  | cons member ms ih => rw [Filter.ofMembers_cons, ih, Policy.gather]

/-! ## Operators -/

namespace FieldOp

/-- The operator that a member of an operator object stands for. -/
def alone (field : String) (member : String × Json) : Except FilterFault FieldOp :=
  if member.1 = "$between" then
    match member.2 with
    | .array [low, high] => do
        let low ← Value.ofJson low
        let high ← Value.ofJson high
        return .between low high
    | _ => .error (.betweenNotPair field)
  else ofMember field member.1 member.2

theorem chunked_of_not_isMembership {c : Chunking} {op : FieldOp}
    (h : op.isMembership = false) : op.chunked c = op := by
  cases op with
  | isIn | notIn => cases h
  | _ => rfl

/-- A chunking changes membership tests only. -/
theorem map_chunked_of_any_eq_false {c : Chunking} {ops : List FieldOp}
    (h : ops.any isMembership = false) : ops.map (chunked c) = ops := by
  induction ops with
  | nil => rfl
  | cons op ops ih =>
    obtain ⟨first, rest⟩ := Bool.or_eq_false_iff.1 h
    rw [List.map_cons, chunked_of_not_isMembership first, ih rest]

/-- An operator without a chunking. -/
def unmarked : FieldOp → FieldOp
  | isIn m => isIn { m with chunking := none }
  | notIn m => notIn { m with chunking := none }
  | op => op

@[simp]
theorem unmarked_chunked (c : Chunking) (op : FieldOp) : (op.chunked c).unmarked = op.unmarked := by
  cases op <;> rfl

theorem unmarked_of_not_isMembership {op : FieldOp} (h : op.isMembership = false) :
    op.unmarked = op := by
  cases op with
  | isIn | notIn => cases h
  | _ => rfl

/-- A chunking is no operator. -/
@[simp]
theorem alone_chunk (field : String) (v : Json) :
    alone field ("$chunk", v) = .error (.unknownOperator field "$chunk") :=
  rfl

/-- Two bounds, literals or not. -/
def IsRange (member : String × Json) : Prop :=
  member.1 = "$between" ∧ ∃ low high, member.2 = .array [low, high]

theorem alone_between_of_not_isRange {field : String} {v : Json}
    (h : ¬ IsRange ("$between", v)) :
    alone field ("$between", v) = .error (.betweenNotPair field) := by
  cases v with
  | array items =>
    match items with
    | [low, high] => exact absurd ⟨rfl, low, high, rfl⟩ h
    | [] | [_] | _ :: _ :: _ :: _ => rfl
  | null | bool | number | string | object => rfl

/-- A member of an operator object that can be read: an operator, or a chunking. -/
def IsReadable (field : String) (member : String × Json) : Prop :=
  if member.1 = "$chunk" then ∃ c, Chunking.decode member.2 = .ok c
  else ∃ op, alone field member = .ok op

theorem not_isRange_chunk (v : Json) : ¬ IsRange ("$chunk", v) :=
  fun h => absurd h.1 (by simp)

theorem isReadable_chunk {field : String} {v : Json} :
    IsReadable field ("$chunk", v) ↔ ∃ c, Chunking.decode v = .ok c :=
  Iff.rfl

theorem isReadable_of_ne {field op : String} {v : Json} (h : op ≠ "$chunk") :
    IsReadable field (op, v) ↔ ∃ o, alone field (op, v) = .ok o := by
  rw [IsReadable, if_neg h]

end FieldOp

namespace OpsRead

open FieldOp (alone IsRange IsReadable)

variable {policy : Policy} {field op : String} {v : Json} {r s : OpsRead}

/-- What has been read after one more member. -/
def after (field : String) (r : OpsRead) (member : String × Json) : OpsRead :=
  if member.1 = "$chunk" then { r with chunking := (Chunking.decode member.2).toOption }
  else r.push (alone field member).toOption

@[simp]
theorem after_chunk : after field r ("$chunk", v) =
    { r with chunking := (Chunking.decode v).toOption } :=
  rfl

theorem after_of_ne (h : op ≠ "$chunk") :
    after field r (op, v) = r.push (alone field (op, v)).toOption :=
  if_neg h

@[simp]
theorem step_chunk : step policy field r "$chunk" v =
    (policy.keep ((Chunking.decode v).mapError (.invalidChunk field))).map
      fun c => { r with chunking := c } :=
  rfl

/-- Bounds are read at once, whatever the policy. -/
theorem step_range (h : IsRange (op, v)) : step policy field r op v =
    (alone field (op, v)).map fun op => r.push (some op) := by
  obtain ⟨rfl, low, high, rfl⟩ := h
  simp only [step, alone]
  cases Value.ofJson low with
  | error e => rfl
  | ok low => cases Value.ofJson high <;> rfl

theorem step_operator (hc : op ≠ "$chunk") (hr : ¬ IsRange (op, v)) :
    step policy field r op v = (policy.keep (alone field (op, v))).map r.push := by
  by_cases hb : op = "$between"
  · subst hb
    cases v with
    | array items =>
      match items with
      | [low, high] => exact absurd ⟨rfl, low, high, rfl⟩ hr
      | [] | [_] | _ :: _ :: _ :: _ => rfl
    | null | bool | number | string | object => rfl
  · simp only [step, alone, if_neg hc, if_neg hb]
    rfl

/-- What cannot be read stops the reading under the strict policy, and if it is a
pair of bounds also under the lenient one. -/
theorem step_eq_ok_iff : step policy field r op v = .ok s ↔
    (policy = .reject ∨ IsRange (op, v) → IsReadable field (op, v)) ∧
      after field r (op, v) = s := by
  by_cases hc : op = "$chunk"
  · subst hc
    rw [step_chunk, Policy.map_keep_eq_ok_iff, exists_mapError_eq_ok_iff, toOption_mapError,
      FieldOp.isReadable_chunk, or_iff_left (FieldOp.not_isRange_chunk v)]
    rfl
  · rw [FieldOp.isReadable_of_ne hc, after_of_ne hc]
    by_cases hr : IsRange (op, v)
    · rw [step_range hr, map_eq_ok_iff]
      cases alone field (op, v) <;> simp [hr]
    · rw [step_operator hc hr, Policy.map_keep_eq_ok_iff, or_iff_left hr]

theorem steps_eq_ok_iff {ms : Members} : steps policy field r ms = .ok s ↔
    (∀ member ∈ ms, policy = .reject ∨ IsRange member → IsReadable field member) ∧
      ms.foldl (after field) r = s := by
  induction ms generalizing r with
  | nil => simp [steps]
  | cons member ms ih =>
    obtain ⟨op, v⟩ := member
    simp only [steps, bind_eq_ok_iff, step_eq_ok_iff, ih, List.forall_mem_cons, List.foldl_cons]
    constructor
    · rintro ⟨_, ⟨first, rfl⟩, rest, rfl⟩
      exact ⟨⟨first, rest⟩, rfl⟩
    · rintro ⟨⟨first, rest⟩, rfl⟩
      exact ⟨_, ⟨first, rfl⟩, rest, rfl⟩

/-! ## What has been read -/

/-- The operators read are those that the members stand for, in their order. -/
@[simp]
theorem ops_foldl_after (ms : Members) : (ms.foldl (after field) r).ops =
    r.ops ++ ms.filterMap fun member => (alone field member).toOption := by
  induction ms generalizing r with
  | nil => simp
  | cons member ms ih =>
    obtain ⟨op, v⟩ := member
    rw [List.foldl_cons, ih, List.filterMap_cons]
    by_cases hc : op = "$chunk"
    · subst hc
      rfl
    · rw [after_of_ne hc]
      cases alone field (op, v) <;> simp [push]

/-- Without a member that asks for a chunking, there is as much of one as before. -/
theorem chunking_foldl_after {ms : Members} (h : ∀ member ∈ ms, member.1 ≠ "$chunk") :
    (ms.foldl (after field) r).chunking = r.chunking := by
  induction ms generalizing r with
  | nil => rfl
  | cons member ms ih =>
    obtain ⟨op, v⟩ := member
    rw [List.foldl_cons, ih fun m hm => h m (by simp [hm]), after_of_ne (h (op, v) (by simp))]
    cases (alone field (op, v)).toOption <;> rfl

/-- What is read of the members of an operator object, as far as they can be read. -/
def ofMembers (field : String) (ms : Members) : OpsRead :=
  ms.foldl (after field) {}

@[simp]
theorem ops_ofMembers (ms : Members) : (ofMembers field ms).ops =
    ms.filterMap fun member => (alone field member).toOption := by
  rw [ofMembers, ops_foldl_after, List.nil_append]

/-- The operators, with the chunking on every membership test. -/
def marked (r : OpsRead) : List FieldOp :=
  match r.chunking with
  | none => r.ops
  | some c => r.ops.map (FieldOp.chunked c)

/-- A chunking without a membership test fails under the strict policy only. -/
theorem finish_eq_ok_iff {ops : List FieldOp} : r.finish policy field = .ok ops ↔
    (policy = .reject → r.chunking = none ∨ r.ops.any FieldOp.isMembership = true) ∧
      r.marked = ops := by
  unfold finish marked
  cases hc : r.chunking with
  | none => simp
  | some c =>
    cases hm : r.ops.any FieldOp.isMembership with
    | true => simp
    | false =>
      have unmarked := FieldOp.map_chunked_of_any_eq_false (c := c) hm
      cases policy <;> simp [unmarked]

end OpsRead

/-- The operators of an operator object are read if no member stops the reading. -/
theorem FieldOp.ofMembers_eq_ok_iff {policy : Policy} {field : String} {ms : Members}
    {ops : List FieldOp} : ofMembers policy field ms = .ok ops ↔
      (∀ member ∈ ms, policy = .reject ∨ IsRange member → IsReadable field member) ∧
      (policy = .reject → (OpsRead.ofMembers field ms).chunking = none ∨
        (OpsRead.ofMembers field ms).ops.any isMembership = true) ∧
      (OpsRead.ofMembers field ms).marked = ops := by
  simp only [ofMembers, bind_eq_ok_iff, OpsRead.steps_eq_ok_iff, OpsRead.finish_eq_ok_iff]
  constructor
  · rintro ⟨_, ⟨each, rfl⟩, rest⟩
    exact ⟨each, rest⟩
  · rintro ⟨each, rest⟩
    exact ⟨_, ⟨each, rfl⟩, rest⟩

end FilterQuery

import FilterQuery.Proofs.Document.Alike
import FilterQuery.Proofs.Document.Grammar
import FilterQuery.Proofs.Filter.Unmarked

/-!
# Literals and operators with one difference

What becomes of two literals that are the same but for one number, when they are read as
the operand of an operator or as the test of a field. Main statement: either both can be
read or neither, and the texts of what they are read as have one difference, which is the
text of the number.
-/

namespace FilterQuery

/-! ## Literals -/

/-- The text of a number as a literal. -/
def Number.literal (x : Number) : String :=
  (Value.ofNumber x).plain

/-- Two literals that are the same but for one number, which stands alone or at any depth of
arrays. -/
inductive Json.LiteralsDiffer (x y : Number) : Json → Json → Prop
  | here : LiteralsDiffer x y (.number x) (.number y)
  | item (before after) {v w} (inner : LiteralsDiffer x y v w) :
      LiteralsDiffer x y (.array (before ++ v :: after)) (.array (before ++ w :: after))

/-- Two values with one difference in their texts; neither of them is null. -/
structure Value.Differ (a b : String) (v w : Value) : Prop where
  plain : TextsDiffer a b v.plain w.plain
  written : TextsDiffer a b v.written w.written
  left_ne : v ≠ .null
  right_ne : w ≠ .null

@[simp]
theorem Value.isQuoted_ofNumber (x : Number) : (ofNumber x).isQuoted = false := by
  cases x with
  | int n word =>
    simp only [ofNumber]
    split <;> rfl
  | double d finite => rfl

@[simp]
theorem Value.written_ofNumber (x : Number) : (ofNumber x).written = x.literal :=
  written_of_not_isQuoted (isQuoted_ofNumber x)

theorem Number.isBareWord_literal (x : Number) : IsBareWord x.literal :=
  Value.isBareWord_plain (Value.isQuoted_ofNumber x)

theorem Value.ofNumber_ne_null (x : Number) : ofNumber x ≠ .null := by
  cases x with
  | int n word =>
    simp only [ofNumber]
    split <;> nofun
  | double d finite => nofun

@[simp, grind =]
theorem Value.plains_eq_map (vs : List Value) : plains vs = vs.map plain := by
  induction vs with
  | nil => rfl
  | cons v vs ih => rw [plains, ih, List.map_cons]

variable {x y : Number} {v w : Json}

theorem Value.differ_array {a b : String} (ha : IsBareWord a) (hb : IsBareWord b)
    {vs ws : List Value} (h : ListsDiffer (Value.Differ a b) vs ws) :
    Value.Differ a b (.array vs) (.array ws) := by
  have joined : TextsDiffer a b (Value.array vs).plain (Value.array ws).plain := by
    simp only [Value.plain, plains_eq_map]
    exact .intercalate "," (h.map fun _ _ => Value.Differ.plain)
  exact ⟨joined, joined.quote ha hb, by rintro ⟨⟩, by rintro ⟨⟩⟩

theorem Value.alike_ofItems (before after : List Json)
    (h : Alike (Value.Differ x.literal y.literal) (ofJson v) (ofJson w)) :
    Alike (ListsDiffer (Value.Differ x.literal y.literal)) (ofItems (before ++ v :: after))
      (ofItems (before ++ w :: after)) := by
  have strict : ∀ as bs, Policy.reject.PartsDiffer (Value.Differ x.literal y.literal) as bs →
      ListsDiffer (Value.Differ x.literal y.literal) as bs := by
    rintro as bs (⟨⟨⟩, -⟩ | differ)
    exact differ
  rw [ofItems_eq_gather, ofItems_eq_gather]
  have gathered := Policy.reject.alike_gather before after h
  rcases gathered.cases with ⟨as, bs, has, hbs, related⟩ | ⟨e, e', has, hbs⟩
  · rw [has, hbs]
    exact strict as bs related
  · rw [has, hbs]
    trivial

/-- Two literals with one difference are read alike. -/
theorem Value.alike_ofJson (h : Json.LiteralsDiffer x y v w) :
    Alike (Value.Differ x.literal y.literal) (ofJson v) (ofJson w) := by
  induction h with
  | here =>
    refine ⟨.self _ _, ?_, ofNumber_ne_null x, ofNumber_ne_null y⟩
    rw [written_ofNumber, written_ofNumber]
    exact .self _ _
  | item before after inner ih =>
    rw [ofJson, ofJson]
    exact (alike_ofItems before after ih).map fun _ _ =>
      differ_array x.isBareWord_literal y.isBareWord_literal

/-! ## Operators -/

namespace FieldOp

/-- Two operators with one difference in the texts of their conditions. -/
structure Differ (a b : String) (o p : FieldOp) : Prop where
  isMembership : o.isMembership = p.isMembership
  soql : ∀ key path, TextsDiffer a b (o.condition key path).soql (p.condition key path).soql

variable {a b : String}

/-- A comparison writes its literal once, behind a sign. -/
theorem differ_of_written {make : Value → FieldOp} (sign : String)
    (listed : ∀ v, (make v).isMembership = false)
    (text : ∀ v key path, v ≠ .null →
      ((make v).condition key path).soql = path ++ sign ++ v.written) (v w : Value)
    (h : Value.Differ a b v w) : Differ a b (make v) (make w) := by
  refine ⟨by rw [listed, listed], fun key path => ?_⟩
  rw [text v key path h.left_ne, text w key path h.right_ne]
  exact h.written.append_left _

/-- A pattern has the text of its literal in it once. -/
theorem differ_of_pattern {make : Value → FieldOp} (ha : IsBareWord a) (hb : IsBareWord b)
    (before after : String) (listed : ∀ v, (make v).isMembership = false)
    (text : ∀ v key path, ((make v).condition key path).soql =
      path ++ " LIKE " ++ Literal.quote (before ++ v.plain ++ after)) (v w : Value)
    (h : Value.Differ a b v w) : Differ a b (make v) (make w) := by
  refine ⟨by rw [listed, listed], fun key path => ?_⟩
  rw [text, text]
  exact .append_left _ (.quote ha hb (.append_right _ (h.plain.append_left _)))

theorem condition_ne {v : Value} (some : v ≠ .null) (key path : String) :
    (FieldOp.ne v).condition key path = .compare key path .ne v := by
  cases v with
  | null => exact absurd rfl some
  | bool | int | double | text | date | timestamp | array => rfl

/-- A comparison is made of the literal that it compares with. -/
theorem differ_comparison (ha : IsBareWord a) (hb : IsBareWord b) {op : String}
    (h : op ∈ comparisons) : ∃ make : Value → FieldOp,
      (∀ field v, alone field (op, v) = (Value.ofJson v).map make) ∧
        ∀ v w, Value.Differ a b v w → FieldOp.Differ a b (make v) (make w) := by
  have written {make : Value → FieldOp} := @differ_of_written a b make
  have pattern {make : Value → FieldOp} := @differ_of_pattern a b make ha hb
  simp only [comparisons, List.mem_cons, List.not_mem_nil, or_false] at h
  rcases h with rfl | rfl | rfl | rfl | rfl | rfl | rfl | rfl | rfl
  · exact ⟨.eq, fun _ _ => rfl, written " = " (fun _ => rfl) fun _ _ _ _ => rfl⟩
  · exact ⟨.ne, fun _ _ => rfl, written " != " (fun _ => rfl) fun _ key path some =>
      congrArg Condition.soql (condition_ne some key path)⟩
  · exact ⟨.gt, fun _ _ => rfl, written " > " (fun _ => rfl) fun _ _ _ _ => rfl⟩
  · exact ⟨.gte, fun _ _ => rfl, written " >= " (fun _ => rfl) fun _ _ _ _ => rfl⟩
  · exact ⟨.lt, fun _ _ => rfl, written " < " (fun _ => rfl) fun _ _ _ _ => rfl⟩
  · exact ⟨.lte, fun _ _ => rfl, written " <= " (fun _ => rfl) fun _ _ _ _ => rfl⟩
  · exact ⟨_, fun _ _ => rfl, pattern "" "" (fun _ => rfl) fun _ _ _ => rfl⟩
  · exact ⟨_, fun _ _ => rfl, pattern "" "%" (fun _ => rfl) fun _ _ _ => rfl⟩
  · exact ⟨_, fun _ _ => rfl, pattern "%" "" (fun _ => rfl) fun _ _ _ => rfl⟩

@[simp]
theorem condition_chunked (c : Chunking) (o : FieldOp) (key path : String) :
    (o.chunked c).condition key path = o.condition key path := by
  rw [← condition_unmarked, unmarked_chunked, condition_unmarked]

@[simp]
theorem isMembership_chunked (c : Chunking) (o : FieldOp) :
    (o.chunked c).isMembership = o.isMembership := by
  cases o <;> rfl

theorem Differ.chunked {o p : FieldOp} (h : Differ a b o p) (c : Chunking) :
    Differ a b (o.chunked c) (p.chunked c) := by
  refine ⟨?_, fun key path => ?_⟩
  · rw [isMembership_chunked, isMembership_chunked, h.isMembership]
  · rw [condition_chunked, condition_chunked]
    exact h.soql key path

theorem differ_membership {make : Membership → FieldOp} (listed : make = .isIn ∨ make = .notIn)
    {vs ws : List Value} (h : ListsDiffer (Value.Differ a b) vs ws) :
    Differ a b (make { values := vs }) (make { values := ws }) := by
  have members : TextsDiffer a b (Operand.list vs).listText (Operand.list ws).listText :=
    .append_right _ (.append_left _ (.intercalate ", " (h.map fun _ _ => Value.Differ.written)))
  rcases listed with rfl | rfl
  · exact ⟨rfl, fun key path => members.append_left _⟩
  · exact ⟨rfl, fun key path => members.append_left _⟩

theorem differ_between_low {v w : Value} (h : Value.Differ a b v w) (high : Value) :
    Differ a b (.between v high) (.between w high) :=
  ⟨rfl, fun _ _ => .append_right _ (.append_right _ (.append_right _ (.append_right _
    (.append_right _ (h.written.append_left _)))))⟩

theorem differ_between_high {v w : Value} (low : Value) (h : Value.Differ a b v w) :
    Differ a b (.between low v) (.between low w) :=
  ⟨rfl, fun _ _ => .append_right _ (h.written.append_left _)⟩

theorem isRange_array_iff {op : String} {items : List Json} :
    IsRange (op, .array items) ↔ op = "$between" ∧ items.length = 2 := by
  simp [IsRange, List.length_eq_two]

theorem alike_between {field : String} {before after : List Json}
    (h : Alike (Value.Differ a b) (Value.ofJson v) (Value.ofJson w)) :
    Alike (Differ a b) (alone field ("$between", .array (before ++ v :: after)))
      (alone field ("$between", .array (before ++ w :: after))) := by
  by_cases two : before.length + (after.length + 1) = 2
  · cases before with
    | nil =>
      obtain ⟨high, rfl⟩ := List.length_eq_one_iff.1 (show after.length = 1 by simpa using two)
      simp only [alone, List.nil_append, if_true]
      rcases h.cases with ⟨c, d, hc, hd, differ⟩ | ⟨e, e', hc, hd⟩
      · rw [hc, hd]
        cases Value.ofJson high with
        | ok high => exact differ_between_low differ high
        | error e => trivial
      · rw [hc, hd]
        trivial
    | cons low lows =>
      rw [List.length_cons] at two
      obtain rfl := List.length_eq_zero_iff.1 (show lows.length = 0 by omega)
      obtain rfl := List.length_eq_zero_iff.1 (show after.length = 0 by omega)
      simp only [alone, List.cons_append, List.nil_append, if_true]
      cases Value.ofJson low with
      | ok low => exact h.map fun _ _ => differ_between_high low
      | error e => trivial
  · have none (u : Json) : ¬IsRange ("$between", .array (before ++ u :: after)) := by
      rw [isRange_array_iff, List.length_append, List.length_cons]
      exact fun range => two range.2
    rw [alone_between_of_not_isRange (none v), alone_between_of_not_isRange (none w)]
    trivial

/-- Two operands with one difference are read alike. -/
theorem alike_alone (field op : String) (h : Json.LiteralsDiffer x y v w) :
    Alike (Differ x.literal y.literal) (alone field (op, v)) (alone field (op, w)) := by
  by_cases hc : op ∈ comparisons
  · obtain ⟨make, read, differ⟩ :=
      differ_comparison x.isBareWord_literal y.isBareWord_literal hc
    rw [read, read]
    exact (Value.alike_ofJson h).map differ
  by_cases hm : op ∈ memberships
  · obtain ⟨make, listed, read⟩ := alone_membership hm
    rw [read, read]
    cases h with
    | here => trivial
    | item before after inner =>
      have members := Value.alike_ofItems before after (Value.alike_ofJson inner)
      rw [membersOf, membersOf]
      rcases members.cases with ⟨vs, ws, hvs, hws, differ⟩ | ⟨e, e', hvs, hws⟩
      · rw [hvs, hws]
        exact differ_membership listed differ
      · rw [hvs, hws]
        trivial
  by_cases hb : op = "$between"
  · subst hb
    cases h with
    | here => trivial
    | item before after inner => exact alike_between (Value.alike_ofJson inner)
  by_cases he : op = "$exists"
  · subst he
    cases h with
    | here | item => trivial
  · rw [alone_unknown hc hm hb he, alone_unknown hc hm hb he]
    trivial

/-! ## Operator objects -/

theorem unchunked_differ : Unchunked (Differ a b) where
  isMembership h := h.isMembership
  chunked c h := h.chunked c

/-- Operator objects with one difference in an operand are read alike. -/
theorem alike_ofMembers (policy : Policy) (field : String) (before after : Members) {op : String}
    (hc : op ≠ "$chunk") (h : Json.LiteralsDiffer x y v w) :
    Alike (policy.PartsDiffer (Differ x.literal y.literal))
      (ofMembers policy field (before ++ (op, v) :: after))
      (ofMembers policy field (before ++ (op, w) :: after)) := by
  have range : IsRange (op, v) ↔ IsRange (op, w) := by
    cases h with
    | here => exact iff_of_false (by rintro ⟨-, _, _, ⟨⟩⟩) (by rintro ⟨-, _, _, ⟨⟩⟩)
    | item => simp [isRange_array_iff]
  exact alike_ofMembers_of_alone unchunked_differ policy before after hc hc range
    (alike_alone field op h)

end FieldOp

end FilterQuery

import FilterQuery.Proofs.Document.Alike
import FilterQuery.Proofs.Document.Extension
import FilterQuery.Proofs.Document.Grammar
import FilterQuery.Proofs.Filter.Wording
import Mathlib.Logic.Relation

/-!
# Shorthands

A document may say one thing in several ways: a literal is short for an operator object that
compares with it, and `$exists` says of null what `$eq` and `$ne` say. The ways give different
filters, and different trees. Main statement: in any places of a document, at any depth, one
way may stand for another; the document is read just the same, and queries with it have the
same text.
-/

namespace FilterQuery

/-- The second way to test a field says what the first one says: a literal is compared with by
`$eq`, or inside an operator object `$exists` stands for a comparison with null. In two steps
null stands for the test that the field has no value. -/
inductive Json.SaysSame : Json → Json → Prop
  | literal {v : Json} (literal : v.IsLiteral) : SaysSame v (.object [("$eq", v)])
  | isNull (before after : Members) :
      SaysSame (.object (before ++ ("$eq", .null) :: after))
        (.object (before ++ ("$exists", .bool false) :: after))
  | hasValue (before after : Members) :
      SaysSame (.object (before ++ ("$ne", .null) :: after))
        (.object (before ++ ("$exists", .bool true) :: after))

/-- Two documents that are the same but for the test of one field, which says the same. It
stands among the members of the document, or in such a place of a filter below a combinator. -/
inductive Json.Respelt : Json → Json → Prop
  | test (before after : Members) {key v w} (plain : key.toList.head? ≠ some '$')
      (same : SaysSame v w) :
      Respelt (.object (before ++ (key, v) :: after)) (.object (before ++ (key, w) :: after))
  | joined (before after : Members) {name} (named : name = "$and" ∨ name = "$or")
      (items items' : List Json) {v w} (inner : Respelt v w) :
      Respelt (.object (before ++ (name, .array (items ++ v :: items')) :: after))
        (.object (before ++ (name, .array (items ++ w :: items')) :: after))
  | not (before after : Members) {v w} (inner : Respelt v w) :
      Respelt (.object (before ++ ("$not", v) :: after))
        (.object (before ++ ("$not", w) :: after))

/-! ## Tests of fields -/

/-- Null as a literal is written like the null of the test for it. -/
theorem Condition.soql_compare_null (key path : String) :
    (compare key path .eq .null).soql = (isNull key path).soql := by
  show path ++ " = " ++ "null" = path ++ " = null"
  rw [String.append_assoc]
  rfl

/-- Two operators that say the same of null. -/
inductive FieldOp.SaysSame : FieldOp → FieldOp → Prop
  | isNull : SaysSame (.eq .null) (.present false)
  | hasValue : SaysSame (.ne .null) (.present true)

namespace FieldOp

theorem unchunked_saysSame : Unchunked SaysSame where
  isMembership
    | .isNull => rfl
    | .hasValue => rfl
  chunked
    | _, .isNull => .isNull
    | _, .hasValue => .hasValue

variable {o p : FieldOp}

theorem SaysSame.soql_eq (h : SaysSame o p) (key path : String) :
    (o.condition key path).soql = (p.condition key path).soql := by
  cases h with
  | isNull => exact Condition.soql_compare_null key path
  | hasValue => rfl

theorem SaysSame.directives_eq (h : SaysSame o p) (path : String) :
    o.directives path = p.directives path := by
  cases h <;> rfl

end FieldOp

/-- Two tests that say the same, to a query on any model. -/
def FieldTest.SaysSame (t u : FieldTest) : Prop :=
  ∀ key path, (t.clause? key path).map Clause.soql = (u.clause? key path).map Clause.soql ∧
    t.directives path = u.directives path

namespace FieldTest

/-- Operator objects say the same, if the operators that differ do. -/
theorem saysSame_ops {policy : Policy} (os ps : List FieldOp)
    (h : policy.PartsDiffer FieldOp.SaysSame os ps) : SaysSame (.ops os) (.ops ps) := by
  intro key path
  rcases h with ⟨-, rfl⟩ | ⟨before, o, p, after, rfl, rfl, same⟩
  · exact ⟨rfl, rfl⟩
  · refine ⟨Clause.joinsTexts_combine _ _ ?_, ?_⟩
    · simp [Clause.soql, same.soql_eq]
    · simp [directives, same.directives_eq]

/-- A comparison with a literal can be read, whatever the policy. -/
theorem ofJson_eq (policy : Policy) (key : String) {v : Json} {a : Value}
    (h : Value.ofJson v = .ok a) :
    ofJson policy key (.object [("$eq", v)]) = .ok (.ops [.eq a]) := by
  have alone : FieldOp.ofMember key "$eq" v = .ok (.eq a) := congrArg (Except.map FieldOp.eq) h
  have read : FieldOp.ofMembers policy key [("$eq", v)] = .ok [.eq a] := by
    simp only [FieldOp.ofMembers, OpsRead.steps, OpsRead.step, alone]
    rfl
  exact congrArg (Except.map FieldTest.ops) read

theorem ofJson_of_isLiteral (policy : Policy) (key : String) {v : Json} (h : v.IsLiteral)
    (some : v ≠ .null) : ofJson policy key v = (Value.ofJson v).map .value := by
  cases h with
  | null => exact absurd rfl some
  | bool | number | string | array => rfl

/-- A literal is read as the comparison with it is. -/
theorem alike_ofJson_compared (policy : Policy) (key : String) {v : Json} (h : v.IsLiteral) :
    Alike SaysSame (ofJson policy key v) (ofJson policy key (.object [("$eq", v)])) := by
  obtain ⟨a, read⟩ := Value.exists_ofJson_iff.2 h
  rw [ofJson_eq policy key read]
  by_cases null : v = .null
  · subst null
    obtain rfl : Value.null = a := Except.ok.inj read
    exact fun key path => ⟨congrArg some (Condition.soql_compare_null key path).symm, rfl⟩
  · rw [ofJson_of_isLiteral policy key h null, read]
    exact fun _ _ => ⟨rfl, rfl⟩

/-- Operator objects with one different member say the same, if the two members do. -/
theorem alike_ofJson_object {policy : Policy} {key op op' : String} {v w : Json}
    {o p : FieldOp} (before after : Members) (hv : FieldOp.alone key (op, v) = .ok o)
    (hw : FieldOp.alone key (op', w) = .ok p) (same : FieldOp.SaysSame o p)
    (plain : op ≠ "$chunk" ∧ op ≠ "$between") (plain' : op' ≠ "$chunk" ∧ op' ≠ "$between") :
    Alike SaysSame (ofJson policy key (.object (before ++ (op, v) :: after)))
      (ofJson policy key (.object (before ++ (op', w) :: after))) := by
  have range : FieldOp.IsRange (op, v) ↔ FieldOp.IsRange (op', w) :=
    iff_of_false (fun h => plain.2 h.1) fun h => plain'.2 h.1
  have alone : Alike FieldOp.SaysSame (FieldOp.alone key (op, v)) (FieldOp.alone key (op', w)) := by
    rw [hv, hw]
    exact same
  exact (FieldOp.alike_ofMembers_of_alone FieldOp.unchunked_saysSame policy before after plain.1
    plain'.1 range alone).map saysSame_ops

/-- Two ways to test a field are read alike, as tests that say the same. -/
theorem alike_ofJson (policy : Policy) (key : String) {v w : Json} (h : Json.SaysSame v w) :
    Alike SaysSame (ofJson policy key v) (ofJson policy key w) := by
  cases h with
  | literal literal => exact alike_ofJson_compared policy key literal
  | isNull before after =>
    exact alike_ofJson_object before after rfl rfl .isNull (by decide) (by decide)
  | hasValue before after =>
    exact alike_ofJson_object before after rfl rfl .hasValue (by decide) (by decide)

end FieldTest

/-! ## Documents -/

theorem Policy.PartsDiffer.map_eq {α β : Type} {policy : Policy} {R : α → α → Prop} {f : α → β}
    (same : ∀ a b, R a b → f a = f b) {as bs : List α} (h : policy.PartsDiffer R as bs) :
    as.map f = bs.map f := by
  rcases h with ⟨-, rfl⟩ | ⟨before, a, b, after, rfl, rfl, related⟩
  · rfl
  · rw [List.map_append, List.map_append, List.map_cons, List.map_cons, same a b related]

/-- Two entries with one wording for every model. -/
def Entry.SaysSame (e f : Entry) : Prop :=
  ∀ m, e.wording m = f.wording m

/-- Two filters with one wording for every model. -/
def Filter.SaysSame (f g : Filter) : Prop :=
  ∀ m, f.wording m = g.wording m

variable {policy : Policy}

theorem Filter.saysSame_of_parts (f g : Filter) (h : policy.PartsDiffer Entry.SaysSame f g) :
    SaysSame f g :=
  fun m => wording_congr (h.map_eq fun _ _ same => same m)

theorem Entry.saysSame_field {key : String} {t u : FieldTest} (h : t.SaysSame u) :
    SaysSame (.field key t) (.field key u) := by
  intro m
  refine Wording.ofClause_eq_iff.2 ⟨rfl, ?_, ?_⟩
  · rw [kept?, kept?]
    cases m.pathFor? key with
    | none => rfl
    | some path => exact (h key path).1
  · rw [directives, directives]
    cases m.pathFor? key with
    | none => rfl
    | some path => exact (h key path).2

/-- Two documents that say the same in one place in two ways are read alike. -/
theorem Filter.alike_ofJson_of_respelt (policy : Policy) {v w : Json} (h : Json.Respelt v w) :
    Alike SaysSame (Filter.ofJson policy v) (Filter.ofJson policy w) := by
  induction h with
  | test before after plain same =>
    refine alike_ofJson_object policy saysSame_of_parts before after ?_
    rw [Entry.ofMember_field plain, Entry.ofMember_field plain]
    exact (FieldTest.alike_ofJson policy _ same).map fun _ _ => Entry.saysSame_field
  | joined before after named items items' inner ih =>
    refine alike_ofJson_object policy saysSame_of_parts before after ?_
    rcases named with rfl | rfl
    · exact Entry.alike_ofJunction policy .all "$and" (fun _ _ parts m =>
        Entry.wording_all_congr (parts.map_eq fun _ _ same => same m)) items items' ih
    · exact Entry.alike_ofJunction policy .any "$or" (fun _ _ parts m =>
        Entry.wording_any_congr (parts.map_eq fun _ _ same => same m)) items items' ih
  | not before after inner ih =>
    exact alike_ofJson_object policy saysSame_of_parts before after
      (ih.map fun _ _ same m => Entry.wording_not_congr (same m))

/-- So are documents that do it in any number of places, in either direction. -/
theorem Filter.alike_ofJson_of_eqvGen (policy : Policy) {v w : Json}
    (h : Relation.EqvGen Json.Respelt v w) :
    Alike SaysSame (Filter.ofJson policy v) (Filter.ofJson policy w) := by
  induction h with
  | rel v w once => exact alike_ofJson_of_respelt policy once
  | refl v => exact .refl (fun _ _ => rfl) _
  | symm v w _ ih => exact ih.symm fun _ _ same m => (same m).symm
  | trans u v w _ _ first second =>
    exact first.trans second fun _ _ _ same same' m => (same m).trans (same' m)

/-- Wherever a document uses a shorthand, what it is short for may stand, and the other way
round: the document is accepted as before, the filters are normalized to the same text and
the same directives, and queries with them have the same text, or are refused for the same
key. -/
theorem Filter.parse_respelt (policy : Policy) {v w : Json}
    (h : Relation.EqvGen Json.Respelt v w) {f : Filter} (accepted : Filter.parse policy v = .ok f) :
    ∃ g, Filter.parse policy w = .ok g ∧
      (∀ m unknown, (g.normalize m unknown).map Normalized.wording =
        (f.normalize m unknown).map Normalized.wording) ∧
      ∀ q : Query, (q.matching g).build.map Select.soql = (q.matching f).build.map Select.soql := by
  have alike := Filter.alike_ofJson_of_eqvGen policy h
  rw [Filter.parse_eq_ok_iff] at accepted
  rcases alike.cases with ⟨a, g, read, reread, same⟩ | ⟨e, e', unread, -⟩
  · rw [accepted] at read
    obtain rfl := Except.ok.inj read
    exact ⟨g, Filter.parse_eq_ok_iff.2 reread,
      fun m unknown => (map_normalize_of_wording unknown (same m)).symm,
      fun q => (q.map_soql_build_of_wording (same q.model)).symm⟩
  · rw [accepted] at unread
    cases unread

/-- A document that is written as shortly as possible, but for one member. -/
def Json.terse : Json :=
  .object [
    ("$or", .array [
      .object [
        ("owner", .null),
        ("$not", .object [("amount", .object [("$gt", .bool false), ("$ne", .null)])])],
      .object [("name", .array [.string "a", .null])]]),
    ("id", .object [("$eq", .string "x")])]

/-- `terse` with its shorthands written out, and shortened in that member. -/
def Json.verbose : Json :=
  .object [
    ("$or", .array [
      .object [
        ("owner", .object [("$exists", .bool false)]),
        ("$not", .object [("amount", .object [("$gt", .bool false), ("$exists", .bool true)])])],
      .object [("name", .object [("$eq", .array [.string "a", .null])])]]),
    ("id", .string "x")]

theorem Json.respelt_terse : Relation.EqvGen Respelt terse verbose := by
  have name : (Json.array [.string "a", .null]).IsLiteral :=
    .array (List.forall_mem_cons.2 ⟨.string _, List.forall_mem_singleton.2 .null⟩)
  refine .trans _ _ _ (.rel _ _ (.joined [] [("id", _)] (.inr rfl) [] [_]
    (.test [] [("$not", _)] (by decide) (.literal .null)))) ?_
  refine .trans _ _ _ (.rel _ _ (.joined [] [("id", _)] (.inr rfl) [] [_]
    (.test [] [("$not", _)] (by decide) (.isNull [] [])))) ?_
  refine .trans _ _ _ (.rel _ _ (.joined [] [("id", _)] (.inr rfl) [] [_]
    (.not [("owner", _)] [] (.test [] [] (by decide) (.hasValue [("$gt", _)] []))))) ?_
  refine .trans _ _ _ (.rel _ _ (.joined [] [("id", _)] (.inr rfl) [_] []
    (.test [] [] (by decide) (.literal name)))) ?_
  exact .symm _ _ (.rel _ _ (.test [("$or", _)] [] (by decide) (.literal (.string "x"))))

theorem Filter.parse_respelt_terse :
    Relation.EqvGen Json.Respelt .terse .verbose ∧ ∃ f, Filter.parse .reject .terse = .ok f ∧
      ∃ g, Filter.parse .reject .verbose = .ok g ∧
        ((Query.ofModel .deals).matching g).build.map Select.soql =
          .ok ("SELECT Id, Name, Amount, Owner.Name FROM Opportunity WHERE " ++
            "(((Owner.Name = null AND (NOT (Amount > false AND Amount != null))) " ++
              "OR Name = 'a,null') AND Id = 'x')") := by
  obtain ⟨f, accepted⟩ : ∃ f, Filter.parse .reject .terse = .ok f := ⟨_, rfl⟩
  obtain ⟨g, reread, -, same⟩ := Filter.parse_respelt .reject Json.respelt_terse accepted
  refine ⟨Json.respelt_terse, f, accepted, g, reread, ?_⟩
  cases accepted
  rw [same]
  rfl

end FilterQuery

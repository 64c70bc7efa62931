import FilterQuery.Proofs.Filter.Kept
import FilterQuery.Query.Basic
import FilterQuery.Select.Soql
import Mathlib.Data.List.Induction

/-!
# Setters

Calls on a query under construction, in any order and number. A call sets one part of the
query and leaves the others, or builds the query as it stands. Main statement: after any calls
every part is what the last call that sets it makes of it, so that calls which agree on these
build the same, whatever was set or built before.
-/

namespace FilterQuery.Query

/-- A call on a query under construction. -/
inductive Call
  | select (s : Selection)
  | selectKeys (keys : List String)
  | matching (f : Filter)
  | sortBy (os : List SortKey)
  | take (n : UInt64)
  | skip (n : UInt64)
  | paginate (p : Pagination)
  | onUnknown (policy : Policy)
  | build

/-- The parts of a query that can be set. -/
inductive Part
  | selection | filter | orderBy | limit | offset | pagination | policy
deriving DecidableEq

/-- What a part of a query is. -/
def Part.Value : Part → Type
  | selection => Option Selection
  | filter => Option Filter
  | orderBy => List SortKey
  | limit => Option UInt64
  | offset => Option UInt64
  | pagination => Option Pagination
  | policy => Policy

/-- A part of a query. -/
def get (q : Query) : (k : Part) → k.Value
  | .selection => q.selection
  | .filter => q.filter
  | .orderBy => q.orderBy
  | .limit => q.limit
  | .offset => q.offset
  | .pagination => q.pagination
  | .policy => q.policy

/-- A query has no other parts, beside its model. -/
theorem eq_of_get {q r : Query} (model : q.model = r.model) (same : ∀ k, q.get k = r.get k) :
    q = r := by
  cases q
  cases r
  rw [mk.injEq]
  exact ⟨model, same .selection, same .filter, same .orderBy, same .limit, same .offset,
    same .pagination, same .policy⟩

/-! ## One call -/

namespace Call

/-- The part that a call sets; building sets none. -/
def part? : Call → Option Part
  | select _ | selectKeys _ => some .selection
  | matching _ => some .filter
  | sortBy _ => some .orderBy
  | take _ => some .limit
  | skip _ => some .offset
  | paginate _ => some .pagination
  | onUnknown _ => some .policy
  | build => none

/-- What a call makes of a query. -/
def apply (q : Query) : Call → Query
  | select s => q.select s
  | selectKeys keys => q.selectKeys keys
  | matching f => q.matching f
  | sortBy os => q.sortBy os
  | take n => q.take n
  | skip n => q.skip n
  | paginate p => q.paginate p
  | onUnknown policy => q.onUnknown policy
  | build => q

/-- What a call gives, if it builds. -/
def outcome? (q : Query) : Call → Option (Except UnknownField Select)
  | build => some q.build
  | _ => none

/-- A call with the selection written out that named keys are short for. -/
def plain : Call → Call
  | selectKeys keys => select (.ofKeys keys)
  | c => c

variable {q : Query} {c : Call} {k : Part}

@[simp]
theorem apply_plain (q : Query) (c : Call) : apply q c.plain = apply q c := by
  cases c <;> rfl

@[simp]
theorem model_apply (q : Query) (c : Call) : (apply q c).model = q.model := by
  cases c <;> rfl

/-- A call leaves the parts that it does not set. -/
theorem get_apply_of_ne (h : c.part? ≠ some k) : (apply q c).get k = q.get k := by
  cases c <;> cases k <;> first | rfl | exact absurd rfl h

/-- What a call makes of the part that it sets does not depend on the query. -/
theorem get_apply_of_eq (h : c.part? = some k) (q r : Query) :
    (apply q c).get k = (apply r c).get k := by
  cases c <;> cases h <;> rfl

end Call

/-! ## Many calls -/

/-- The query after calls. -/
def after (q : Query) (cs : List Call) : Query :=
  cs.foldl Call.apply q

/-- What is built in the course of calls. -/
def builds (q : Query) : List Call → List (Except UnknownField Select)
  | [] => []
  | c :: cs => (c.outcome? q).toList ++ (c.apply q).builds cs

/-- The last of the calls that sets the part `k`. -/
def lastCall? (k : Part) (cs : List Call) : Option Call :=
  (cs.filter fun c => c.part? = some k).getLast?

/-- Two sequences of calls have the same last call for every part. Two ways to write a
selection are one call. -/
def AgreeOnLast (cs ds : List Call) : Prop :=
  ∀ k, (lastCall? k cs).map Call.plain = (lastCall? k ds).map Call.plain

variable {cs ds : List Call} {k : Part}

@[simp]
theorem after_append (q : Query) (cs ds : List Call) :
    q.after (cs ++ ds) = (q.after cs).after ds :=
  List.foldl_append

@[simp]
theorem model_after (q : Query) (cs : List Call) : (q.after cs).model = q.model := by
  induction cs using List.reverseRecOn with
  | nil => rfl
  | append_singleton cs c ih =>
    rw [after_append]
    exact (Call.model_apply _ c).trans ih

@[simp]
theorem builds_append (q : Query) (cs ds : List Call) :
    q.builds (cs ++ ds) = q.builds cs ++ (q.after cs).builds ds := by
  induction cs generalizing q with
  | nil => rfl
  | cons c cs ih =>
    rw [List.cons_append, builds, builds, ih, List.append_assoc]
    rfl

@[simp, grind =]
theorem lastCall?_append_singleton (k : Part) (cs : List Call) (c : Call) :
    lastCall? k (cs ++ [c]) = if c.part? = some k then some c else lastCall? k cs := by
  unfold lastCall?
  by_cases sets : c.part? = some k
  · simp [sets]
  · simp [sets]

/-- After any calls, a part of a query is what the last call that sets it makes of it, and as
it was if there is none. -/
theorem get_after (q : Query) (cs : List Call) (k : Part) :
    (q.after cs).get k = (q.after (lastCall? k cs).toList).get k := by
  induction cs using List.reverseRecOn with
  | nil => rfl
  | append_singleton cs c ih =>
    rw [after_append, lastCall?_append_singleton]
    by_cases sets : c.part? = some k
    · -- whatever the calls before it have made of the part
      rw [if_pos sets]
      exact Call.get_apply_of_eq sets _ _
    · rw [if_neg sets]
      exact (Call.get_apply_of_ne sets).trans ih

/-- Calls that agree on the last call for every part give the same query. -/
theorem after_congr (q : Query) (h : AgreeOnLast cs ds) : q.after cs = q.after ds := by
  have plain : ∀ c? : Option Call, q.after c?.toList = q.after (c?.map Call.plain).toList := by
    rintro (_ | c)
    · rfl
    · exact (Call.apply_plain q c).symm
  refine eq_of_get ((model_after q cs).trans (model_after q ds).symm) fun k => ?_
  rw [get_after q cs, get_after q ds, plain, h, ← plain]

theorem agreeOnLast_swap (cs ds : List Call) {c d : Call} (h : c.part? ≠ d.part?) :
    AgreeOnLast (cs ++ c :: d :: ds) (cs ++ d :: c :: ds) := by
  intro k
  unfold lastCall?
  simp only [List.filter_append, List.filter_cons, decide_eq_true_eq]
  by_cases sets : c.part? = some k
  · have other : d.part? ≠ some k := fun sets' => h (sets.trans sets'.symm)
    rw [if_pos sets, if_neg other, if_neg other, if_pos sets]
  · rw [if_neg sets, if_neg sets]

/-- What is built after calls depends on the last call for every part only. So calls for
different parts commute, and a build, whatever it gives, has no effect on the builds before and
after it. -/
theorem build_after_congr (m : Model) :
    (∀ cs ds, AgreeOnLast cs ds →
      ((ofModel m).after cs).build = ((ofModel m).after ds).build ∧
        ((ofModel m).after cs).build.map Select.soql =
          ((ofModel m).after ds).build.map Select.soql) ∧
    (∀ cs ds (c d : Call), c.part? ≠ d.part? →
      ((ofModel m).after (cs ++ c :: d :: ds)).build =
        ((ofModel m).after (cs ++ d :: c :: ds)).build) ∧
    ∀ cs ds, ∃ earlier later,
      (ofModel m).builds cs = earlier ∧
        (ofModel m).builds (cs ++ ds) = earlier ++ later ∧
        (ofModel m).builds (cs ++ .build :: ds) =
          earlier ++ ((ofModel m).after cs).build :: later := by
  refine ⟨fun cs ds agree => ?_, fun cs ds c d apart => ?_, fun cs ds => ?_⟩
  · rw [after_congr _ agree]
    exact ⟨rfl, rfl⟩
  · rw [after_congr _ (agreeOnLast_swap cs ds apart)]
  · exact ⟨_, _, rfl, builds_append _ cs ds, builds_append _ cs (.build :: ds)⟩

/-- A selection and a filter, each set twice; the first build fails, for a key that is
unknown. -/
def hesitant : List Call :=
  [.select ⟨[("amount", false)]⟩, .matching [.field "stage" .null], .take 5, .build,
    .selectKeys ["id"], .matching [.field "owner" .null], .sortBy [⟨"name", .desc⟩], .build]

/-- The last calls of `hesitant`, in another order. -/
def direct : List Call :=
  [.sortBy [⟨"name", .desc⟩], .matching [.field "owner" .null], .take 5, .select (.ofKeys ["id"])]

theorem build_after_congr_hesitant :
    AgreeOnLast hesitant direct ∧
      (∃ s, (ofModel .deals).builds hesitant = [.error ⟨"Deal", "stage"⟩, .ok s]) ∧
      ((ofModel .deals).after direct).build.map Select.soql =
        .ok "SELECT Id FROM Opportunity WHERE Owner.Name = null ORDER BY Name DESC LIMIT 5" := by
  have agree : AgreeOnLast hesitant direct := fun k => by cases k <;> rfl
  obtain ⟨-, text⟩ := (build_after_congr .deals).1 _ _ agree
  refine ⟨agree, ⟨_, rfl⟩, ?_⟩
  rw [← text]
  rfl

end FilterQuery.Query

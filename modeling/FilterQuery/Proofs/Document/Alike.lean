import FilterQuery.Proofs.Document.Parts
import FilterQuery.Proofs.Text.Differing

/-!
# Documents with one different part

What becomes of two lists of parts that are the same but for one part. Main statements: the
parts are read alike if the two that differ are, whatever it is that relates them, and so are
operator objects and filters.
-/

namespace FilterQuery

/-! ## Results -/

section

variable {ε ε' α β γ δ : Type} {R : α → β → Prop} {S : γ → δ → Prop}

/-- Both computations fail, or both succeed and their results are related. -/
def Alike (R : α → β → Prop) : Except ε α → Except ε' β → Prop
  | .ok a, .ok b => R a b
  | .error _, .error _ => True
  | _, _ => False

namespace Alike

variable {x : Except ε α} {y : Except ε' β}

theorem cases (h : Alike R x y) :
    (∃ a b, x = .ok a ∧ y = .ok b ∧ R a b) ∨ ∃ e e', x = .error e ∧ y = .error e' := by
  cases x with
  | ok a =>
    cases y with
    | ok b => exact .inl ⟨a, b, rfl, rfl, h⟩
    | error e => exact h.elim
  | error e =>
    cases y with
    | ok b => exact h.elim
    | error e' => exact .inr ⟨e, e', rfl, rfl⟩

theorem map {f : α → γ} {g : β → δ} (h : Alike R x y) (related : ∀ a b, R a b → S (f a) (g b)) :
    Alike S (x.map f) (y.map g) := by
  rcases h.cases with ⟨a, b, rfl, rfl, h⟩ | ⟨e, e', rfl, rfl⟩
  · exact related a b h
  · trivial

theorem mono {S : α → β → Prop} (h : Alike R x y) (related : ∀ a b, R a b → S a b) :
    Alike S x y := by
  rcases h.cases with ⟨a, b, rfl, rfl, h⟩ | ⟨e, e', rfl, rfl⟩
  · exact related a b h
  · trivial

/-- Both succeed under conditions that are equivalent. -/
theorem of_ok_iff {P Q : Prop} {a : α} {b : β} (hx : ∀ c, x = .ok c ↔ P ∧ a = c)
    (hy : ∀ c, y = .ok c ↔ Q ∧ b = c) (same : P ↔ Q) (related : P → R a b) : Alike R x y := by
  by_cases p : P
  · rw [(hx a).2 ⟨p, rfl⟩, (hy b).2 ⟨same.1 p, rfl⟩]
    exact related p
  · cases x with
    | ok c => exact absurd ((hx c).1 rfl).1 p
    | error e =>
      cases y with
      | ok c => exact absurd (same.2 ((hy c).1 rfl).1) p
      | error e' => trivial

theorem refl {R : α → α → Prop} (related : ∀ a, R a a) (x : Except ε α) : Alike R x x := by
  cases x with
  | ok a => exact related a
  | error e => trivial

theorem symm {S : β → α → Prop} (h : Alike R x y) (related : ∀ a b, R a b → S b a) :
    Alike S y x := by
  rcases h.cases with ⟨a, b, rfl, rfl, h⟩ | ⟨e, e', rfl, rfl⟩
  · exact related a b h
  · trivial

theorem trans {ε'' : Type} {S : β → γ → Prop} {T : α → γ → Prop} {z : Except ε'' γ}
    (h : Alike R x y) (h' : Alike S y z) (related : ∀ a b c, R a b → S b c → T a c) :
    Alike T x z := by
  rcases h.cases with ⟨a, b, rfl, rfl, h⟩ | ⟨e, e', rfl, rfl⟩
  · rcases h'.cases with ⟨_, c, ⟨⟩, rfl, h'⟩ | ⟨_, _, ⟨⟩, -⟩
    exact related a b c h h'
  · rcases h'.cases with ⟨_, _, ⟨⟩, -⟩ | ⟨_, _, -, rfl⟩
    trivial

theorem exists_ok_iff (h : Alike R x y) : (∃ a, x = .ok a) ↔ ∃ b, y = .ok b := by
  rcases h.cases with ⟨a, b, rfl, rfl, -⟩ | ⟨e, e', rfl, rfl⟩
  · exact iff_of_true ⟨a, rfl⟩ ⟨b, rfl⟩
  · exact iff_of_false nofun nofun

end Alike

end

/-! ## Parts -/

namespace Policy

variable {α β : Type} {policy : Policy} {R : β → β → Prop}

/-- What is read of parts with one difference: the parts that differ are left out under the
lenient policy, or both are read. -/
def PartsDiffer (policy : Policy) (R : β → β → Prop) (as bs : List β) : Prop :=
  policy = .ignore ∧ as = bs ∨ ListsDiffer R as bs

theorem PartsDiffer.append_left {as bs : List β} (cs : List β) (h : policy.PartsDiffer R as bs) :
    policy.PartsDiffer R (cs ++ as) (cs ++ bs) :=
  h.imp (fun ⟨lenient, same⟩ => ⟨lenient, congrArg _ same⟩) fun differ => differ.append_left cs

/-- Parts with one difference are read alike, if the two that differ are. -/
theorem alike_gather (policy : Policy) {read : α → Except FilterFault β} (before after : List α)
    {a b : α}
    (h : Alike R (read a) (read b)) :
    Alike (policy.PartsDiffer R) (policy.gather read (before ++ a :: after))
      (policy.gather read (before ++ b :: after)) := by
  induction before with
  | nil =>
    simp only [List.nil_append, gather]
    rcases h.cases with ⟨c, d, hc, hd, related⟩ | ⟨e, e', hc, hd⟩
    · rw [hc, hd]
      cases policy.gather read after with
      | ok rest => exact .inr (.intro [] rest related)
      | error e => trivial
    · rw [hc, hd]
      cases policy with
      | reject => trivial
      | ignore =>
        cases Policy.ignore.gather read after with
        | ok rest => exact .inl ⟨rfl, rfl⟩
        | error e => trivial
  | cons c before ih =>
    simp only [List.cons_append, gather]
    cases policy.keep (read c) with
    | ok first => exact ih.map fun _ _ => PartsDiffer.append_left first.toList
    | error e => trivial

end Policy

/-! ## Operator objects -/

namespace OpsRead

variable {field : String} {before : Members}

/-- The chunking that is read is that of the members that ask for one. -/
theorem chunking_foldl_after_eq (ms : Members) (r : OpsRead) :
    (ms.foldl (OpsRead.after field) r).chunking = ms.foldl (fun chunking member =>
      if member.1 = "$chunk" then (Chunking.decode member.2).toOption else chunking)
      r.chunking := by
  induction ms generalizing r with
  | nil => rfl
  | cons member ms ih =>
    obtain ⟨op, v⟩ := member
    rw [List.foldl_cons, List.foldl_cons, ih]
    by_cases hc : op = "$chunk"
    · subst hc
      rfl
    · rw [after_of_ne hc, if_neg hc]
      cases (FieldOp.alone field (op, v)).toOption <;> rfl

/-- A member that asks for no chunking has no part in the one that is read. -/
theorem chunking_ofMembers_eq (field : String) (before after : Members) {p q : String × Json}
    (hp : p.1 ≠ "$chunk") (hq : q.1 ≠ "$chunk") :
    (ofMembers field (before ++ p :: after)).chunking =
      (ofMembers field (before ++ q :: after)).chunking := by
  rw [ofMembers, ofMembers, chunking_foldl_after_eq, chunking_foldl_after_eq]
  simp [if_neg hp, if_neg hq]

theorem ops_ofMembers_append (ms : Members) (member : String × Json) :
    (ofMembers field (before ++ member :: ms)).ops =
      (ofMembers field before).ops ++ ((FieldOp.alone field member).toOption.toList ++
        (ofMembers field ms).ops) := by
  simp only [ops_ofMembers, List.filterMap_append, List.filterMap_cons]
  cases (FieldOp.alone field member).toOption <;> rfl

end OpsRead

namespace FieldOp

/-- What relates two operators has no part in the chunkings of an operator object. -/
structure Unchunked (R : FieldOp → FieldOp → Prop) : Prop where
  isMembership : ∀ {o p}, R o p → o.isMembership = p.isMembership
  chunked : ∀ {o p} c, R o p → R (o.chunked c) (p.chunked c)

variable {field : String} {R : FieldOp → FieldOp → Prop} {p q : String × Json}

theorem any_isMembership_eq (unchunked : Unchunked R) {os ps : List FieldOp}
    (h : ListsDiffer R os ps) : os.any isMembership = ps.any isMembership := by
  obtain ⟨before, o, p, after, rfl, rfl, related⟩ := h
  simp [unchunked.isMembership related]

/-- The operators of members with one difference: the member that differs is no operator, or
it is read. -/
theorem ops_cases (before after : Members) (h : Alike R (alone field p) (alone field q)) :
    (∃ e, alone field p = .error e) ∧
        (OpsRead.ofMembers field (before ++ p :: after)).ops =
          (OpsRead.ofMembers field (before ++ q :: after)).ops ∨
      ListsDiffer R (OpsRead.ofMembers field (before ++ p :: after)).ops
        (OpsRead.ofMembers field (before ++ q :: after)).ops := by
  rw [OpsRead.ops_ofMembers_append, OpsRead.ops_ofMembers_append]
  rcases h.cases with ⟨o, p, ho, hp, related⟩ | ⟨e, e', ho, hp⟩
  · rw [ho, hp]
    exact .inr (.intro _ _ related)
  · rw [ho, hp]
    exact .inl ⟨⟨e, rfl⟩, rfl⟩

/-- Operator objects with one different member are read alike, if the two members stand for
operators that are related. -/
theorem alike_ofMembers_of_alone (unchunked : Unchunked R) (policy : Policy)
    (before after : Members) (hp : p.1 ≠ "$chunk") (hq : q.1 ≠ "$chunk")
    (range : IsRange p ↔ IsRange q) (h : Alike R (alone field p) (alone field q)) :
    Alike (policy.PartsDiffer R) (ofMembers policy field (before ++ p :: after))
      (ofMembers policy field (before ++ q :: after)) := by
  have chunking := OpsRead.chunking_ofMembers_eq field before after hp hq
  have ops := ops_cases before after h
  have readable : IsReadable field p ↔ IsReadable field q := by
    rw [isReadable_of_ne hp, isReadable_of_ne hq]
    exact h.exists_ok_iff
  have listed : (OpsRead.ofMembers field (before ++ p :: after)).ops.any isMembership =
      (OpsRead.ofMembers field (before ++ q :: after)).ops.any isMembership := by
    rcases ops with ⟨-, same⟩ | differ
    · rw [same]
    · exact any_isMembership_eq unchunked differ
  refine .of_ok_iff (fun _ => by rw [ofMembers_eq_ok_iff, ← and_assoc])
    (fun _ => by rw [ofMembers_eq_ok_iff, ← and_assoc]) ?_ ?_
  · simp only [List.forall_mem_append, List.forall_mem_cons, readable, range, chunking, listed]
  · rintro ⟨each, -⟩
    unfold OpsRead.marked
    rw [chunking]
    have parts : policy.PartsDiffer R (OpsRead.ofMembers field (before ++ p :: after)).ops
        (OpsRead.ofMembers field (before ++ q :: after)).ops := by
      refine ops.imp (fun ⟨⟨e, unread⟩, same⟩ => ⟨?_, same⟩) id
      cases policy with
      | ignore => rfl
      | reject =>
        obtain ⟨o, read⟩ := (isReadable_of_ne hp).1 (each p (by simp) (.inl rfl))
        rw [unread] at read
        cases read
    cases (OpsRead.ofMembers field (before ++ q :: after)).chunking with
    | none => exact parts
    | some c =>
      exact parts.imp (fun ⟨lenient, same⟩ => ⟨lenient, congrArg _ same⟩) fun differ =>
        differ.map fun _ _ => unchunked.chunked c

end FieldOp

/-! ## Filters -/

/-- Filters with one different member are read alike, if the two members stand for entries
that are related. -/
theorem Filter.alike_ofJson_object (policy : Policy) {R : Filter → Filter → Prop}
    {S : Entry → Entry → Prop} (parts : ∀ f g : Filter, policy.PartsDiffer S f g → R f g)
    (before after : Members) {p q : String × Json}
    (h : Alike S (Entry.ofMember policy p) (Entry.ofMember policy q)) :
    Alike R (Filter.ofJson policy (.object (before ++ p :: after)))
      (Filter.ofJson policy (.object (before ++ q :: after))) := by
  rw [Filter.ofJson, Filter.ofJson, Filter.ofMembers_eq_gather, Filter.ofMembers_eq_gather]
  exact (policy.alike_gather before after h).mono parts

/-- Combinators over lists with one different filter are read alike, if the two filters are. -/
theorem Entry.alike_ofJunction (policy : Policy) (make : List Filter → Entry) (name : String)
    {R : Filter → Filter → Prop} {S : Entry → Entry → Prop}
    (joined : ∀ fs gs, policy.PartsDiffer R fs gs → S (make fs) (make gs))
    (before after : List Json) {v w : Json}
    (h : Alike R (Filter.ofJson policy v) (Filter.ofJson policy w)) :
    Alike S (Entry.ofJunction policy make name (.array (before ++ v :: after)))
      (Entry.ofJunction policy make name (.array (before ++ w :: after))) := by
  rw [Entry.ofJunction, Entry.ofJunction, Filter.ofItems_eq_gather, Filter.ofItems_eq_gather]
  exact (policy.alike_gather before after h).map joined

end FilterQuery

import FilterQuery.Clause.Soql
import FilterQuery.Proofs.Filter.Meaning
import Mathlib.Data.Bool.Basic
import Mathlib.Order.MinMax

/-!
# Omission of undeclared keys

Under the lenient policy the parts of a filter on undeclared keys are left out. In
a conjunction that makes a filter weaker, in a disjunction stronger, and under a
negation it is the other way round; where all parts go, what joined them goes too.
Main statement: a filter that is true before the omission stays true, provided that
parts are left out of others in places only where that makes the whole weaker. An
alternative that is left out, or a part of what is excluded, may cost matches.
-/

namespace FilterQuery

/-! ## The order of truth values -/

/-- A logic whose connectives follow an order of its truth values. -/
structure Logic.IsOrdered {α : Type} [LinearOrder α] (L : Logic α) : Prop where
  both_eq_min : ∀ a b, L.both a b = min a b
  either_eq_max : ∀ a b, L.either a b = max a b
  opposite_le : ∀ {a b}, a ≤ b → L.opposite b ≤ L.opposite a
  le_holds : ∀ a, a ≤ L.holds

theorem Logic.isOrdered_boolean : Logic.boolean.IsOrdered where
  both_eq_min := by decide
  either_eq_max := by decide
  opposite_le := by decide
  le_holds := by decide

/-- How true a truth value is. -/
def Kleene.rank : Kleene → Nat
  | no => 0
  | unknown => 1
  | yes => 2

theorem Kleene.rank_injective : Function.Injective Kleene.rank := by
  intro a b h
  cases a <;> cases b <;> first | rfl | cases h

instance : LinearOrder Kleene := LinearOrder.lift' Kleene.rank Kleene.rank_injective

theorem Logic.isOrdered_kleene : Logic.kleene.IsOrdered where
  both_eq_min := by intro a b; cases a <;> cases b <;> rfl
  either_eq_max := by intro a b; cases a <;> cases b <;> rfl
  opposite_le := by intro a b; cases a <;> cases b <;> decide
  le_holds := by intro a; cases a <;> decide

/-- Whether a part stands under an even or an odd number of negations. -/
inductive Polarity
  | positive
  | negative
deriving DecidableEq, Repr

namespace Polarity

def flip : Polarity → Polarity
  | positive => negative
  | negative => positive

/-- In a positive place the second value is at least as true as the first, in a
negative one at most as true. -/
def Leads {α : Type} [LinearOrder α] : Polarity → α → α → Prop
  | positive, a, b => a ≤ b
  | negative, a, b => b ≤ a

/-- Whether parts may be left out of others: in a positive place out of a
conjunction, in a negative one out of a disjunction. -/
def admits : Polarity → Junction → Bool
  | positive, .conjunction | negative, .disjunction => true
  | positive, .disjunction | negative, .conjunction => false

end Polarity

/-! ## Filters as a whole -/

/-- An entry in which nothing is empty. -/
inductive Entry.IsSolid : Entry → Prop
  | all {filters} (some : filters ≠ []) (filled : ∀ f ∈ filters, f ≠ [])
      (parts : ∀ f ∈ filters, ∀ e ∈ f, IsSolid e) : IsSolid (.all filters)
  | any {filters} (some : filters ≠ []) (filled : ∀ f ∈ filters, f ≠ [])
      (parts : ∀ f ∈ filters, ∀ e ∈ f, IsSolid e) : IsSolid (.any filters)
  | not {filter} (filled : filter ≠ []) (parts : ∀ e ∈ filter, IsSolid e) :
      IsSolid (.not filter)
  | raw (fragment) : IsSolid (.raw fragment)
  | field {key test} (some : test.isVacuous = false) : IsSolid (.field key test)

section

variable {α : Type} (m : Model) (L : Logic α) (v u : Assignment α)

mutual

/-- The truth of an entry with all its parts. Conditions on undeclared keys have
truth values of their own, which `u` gives by key. -/
@[simp] def Entry.wholeTruth : Entry → α
  | .all filters => L.conjunction (Filter.wholeTruthsAll filters)
  | .any filters => L.disjunction (Filter.wholeTruthsAll filters)
  | .not filter => L.opposite (L.conjunction (Filter.wholeTruths filter))
  | .raw fragment => v.raw fragment
  | .field key test =>
      match m.pathFor? key with
      | some path => test.truth L v path
      | none => test.truth L u key

/-- The truth of each entry. -/
def Filter.wholeTruths : Filter → List α
  | [] => []
  | e :: es => Entry.wholeTruth e :: Filter.wholeTruths es

/-- The truth of each filter. -/
def Filter.wholeTruthsAll : List Filter → List α
  | [] => []
  | f :: fs => L.conjunction (Filter.wholeTruths f) :: Filter.wholeTruthsAll fs

end

/-- The truth of a filter with all its parts: its entries must all hold. -/
def Filter.wholeTruth (f : Filter) : α :=
  L.conjunction (Filter.wholeTruths m L v u f)

@[simp, grind =]
theorem Filter.wholeTruths_eq_map (f : Filter) :
    Filter.wholeTruths m L v u f = f.map (Entry.wholeTruth m L v u) := by
  induction f with
  | nil => rfl
  | cons e es ih => rw [Filter.wholeTruths, ih, List.map_cons]

@[simp, grind =]
theorem Filter.wholeTruthsAll_eq_map (fs : List Filter) :
    Filter.wholeTruthsAll m L v u fs = fs.map (Filter.wholeTruth m L v u) := by
  induction fs with
  | nil => rfl
  | cons f fs ih => rw [Filter.wholeTruthsAll, ih, List.map_cons, Filter.wholeTruth]

end

/-! ## Parts that are left out -/

/-- An entry that tests undeclared keys only. -/
inductive Entry.IsForeign (m : Model) : Entry → Prop
  | all {filters} (parts : ∀ f ∈ filters, ∀ e ∈ f, IsForeign m e) : IsForeign m (.all filters)
  | any {filters} (parts : ∀ f ∈ filters, ∀ e ∈ f, IsForeign m e) : IsForeign m (.any filters)
  | not {filter} (parts : ∀ e ∈ filter, IsForeign m e) : IsForeign m (.not filter)
  | field {key test} (undeclared : m.declares key = false) : IsForeign m (.field key test)

/-- A filter that tests undeclared keys only. -/
def Filter.IsForeign (m : Model) (f : Filter) : Prop :=
  ∀ e ∈ f, e.IsForeign m

/-- Parts joined by `j`, of which only some may be left out if `p` admits that. -/
def Polarity.Spares {β : Type} (p : Polarity) (j : Junction) (foreign : β → Prop)
    (parts : List β) : Prop :=
  p.admits j = true ∨ (∀ x ∈ parts, foreign x) ∨ ∀ x ∈ parts, ¬ foreign x

/-- An entry of polarity `p` that loses parts in places only where that is admitted. -/
inductive Entry.OmitsSafely (m : Model) : Polarity → Entry → Prop
  | all {p filters} (joint : p.Spares .conjunction (Filter.IsForeign m) filters)
      (each : ∀ f ∈ filters, p.Spares .conjunction (Entry.IsForeign m) f)
      (parts : ∀ f ∈ filters, ∀ e ∈ f, OmitsSafely m p e) : OmitsSafely m p (.all filters)
  | any {p filters} (joint : p.Spares .disjunction (Filter.IsForeign m) filters)
      (each : ∀ f ∈ filters, p.Spares .conjunction (Entry.IsForeign m) f)
      (parts : ∀ f ∈ filters, ∀ e ∈ f, OmitsSafely m p e) : OmitsSafely m p (.any filters)
  | not {p filter} (each : p.flip.Spares .conjunction (Entry.IsForeign m) filter)
      (parts : ∀ e ∈ filter, OmitsSafely m p.flip e) : OmitsSafely m p (.not filter)
  | raw (p fragment) : OmitsSafely m p (.raw fragment)
  | field (p key test) : OmitsSafely m p (.field key test)

variable {m : Model}

@[simp]
theorem Clause.combine_eq_none_iff {cs : List Clause} : combine cs = none ↔ cs = [] := by
  match cs with
  | [] | [_] | _ :: _ :: _ => simp [combine]

@[simp]
theorem Clause.allOf?_eq_none_iff {cs : List Clause} : allOf? cs = none ↔ cs = [] := by
  cases cs <;> simp [allOf?]

@[simp]
theorem Clause.anyOf?_eq_none_iff {cs : List Clause} : anyOf? cs = none ↔ cs = [] := by
  cases cs <;> simp [anyOf?]

/-- Nothing is left of a filter just if nothing is left of any entry. -/
theorem Filter.kept?_eq_none_iff {f : Filter} :
    f.kept? m = none ↔ ∀ e ∈ f, e.kept? m = none := by
  rw [Filter.kept?, Clause.combine_eq_none_iff, Filter.kept_eq_filterMap,
    List.filterMap_eq_nil_iff]

theorem Filter.keptAll_eq_nil_iff {fs : List Filter} :
    Filter.keptAll m fs = [] ↔ ∀ f ∈ fs, ∀ e ∈ f, e.kept? m = none := by
  rw [Filter.keptAll_eq_filterMap, List.filterMap_eq_nil_iff]
  exact forall₂_congr fun f _ => Filter.kept?_eq_none_iff

theorem Entry.kept?_not_eq_none_iff {f : Filter} :
    (Entry.not f).kept? m = none ↔ ∀ e ∈ f, e.kept? m = none := by
  rw [Entry.kept?, Option.map_eq_none_iff, ← Filter.kept?, Filter.kept?_eq_none_iff]

/-- Nothing is left of an entry that tests undeclared keys only. -/
theorem Entry.IsForeign.kept?_eq_none {e : Entry} (h : e.IsForeign m) : e.kept? m = none := by
  induction h with
  | all _ ih => exact Clause.allOf?_eq_none_iff.2 (Filter.keptAll_eq_nil_iff.2 ih)
  | any _ ih => exact Clause.anyOf?_eq_none_iff.2 (Filter.keptAll_eq_nil_iff.2 ih)
  | not _ ih => exact Entry.kept?_not_eq_none_iff.2 ih
  | field undeclared =>
    rw [Entry.kept?, Model.pathFor?_eq_none_iff.2 undeclared, Option.bind_none]

/-- Something is left of an entry that tests a declared key and has no empty part. -/
theorem Entry.IsSolid.isForeign {e : Entry} (h : e.IsSolid) (hk : e.kept? m = none) :
    e.IsForeign m := by
  induction h with
  | all _ _ _ ih =>
    have none_left := Filter.keptAll_eq_nil_iff.1 (Clause.allOf?_eq_none_iff.1 hk)
    exact .all fun f hf e he => ih f hf e he (none_left f hf e he)
  | any _ _ _ ih =>
    have none_left := Filter.keptAll_eq_nil_iff.1 (Clause.anyOf?_eq_none_iff.1 hk)
    exact .any fun f hf e he => ih f hf e he (none_left f hf e he)
  | not _ _ ih =>
    have none_left := Entry.kept?_not_eq_none_iff.1 hk
    exact .not fun e he => ih e he (none_left e he)
  | raw fragment => cases hk
  | @field key test some =>
    refine .field (Model.pathFor?_eq_none_iff.1 ?_)
    cases hp : m.pathFor? key with
    | none => rfl
    | some path =>
      rw [Entry.kept?, hp, Option.bind_some] at hk
      cases test with
      | null | value => cases hk
      | ops list =>
        rw [FieldTest.clause?, Clause.combine_eq_none_iff, List.map_eq_nil_iff] at hk
        simp [FieldTest.isVacuous, hk] at some

/-! ## What is left follows the whole -/

namespace Logic

variable {α : Type} {L : Logic α}

/-- The connective of a junction. -/
def connective (L : Logic α) : Junction → α → α → α
  | .conjunction => L.both
  | .disjunction => L.either

/-- The truth of parts joined by a junction. -/
def joined (L : Logic α) : Junction → List α → α
  | .conjunction => L.conjunction
  | .disjunction => L.disjunction

@[simp]
theorem joined_cons (j : Junction) (a : α) (as : List α) :
    L.joined j (a :: as) = L.connective j a (L.joined j as) := by
  cases j <;> rfl

end Logic

section

variable {α : Type} [LinearOrder α] {L : Logic α}

theorem Polarity.leads_refl (p : Polarity) (a : α) : p.Leads a a := by
  cases p <;> exact le_rfl

theorem Logic.IsOrdered.leads_connective (h : L.IsOrdered) (p : Polarity) (j : Junction)
    {a b x y : α} (hab : p.Leads a b) (hxy : p.Leads x y) :
    p.Leads (L.connective j a x) (L.connective j b y) := by
  cases j with
  | conjunction =>
    simp only [Logic.connective, h.both_eq_min]
    cases p with
    | positive => exact min_le_min hab hxy
    | negative => exact min_le_min hab hxy
  | disjunction =>
    simp only [Logic.connective, h.either_eq_max]
    cases p with
    | positive => exact max_le_max hab hxy
    | negative => exact max_le_max hab hxy

/-- Where a part may be left out, the others alone still lead on. -/
theorem Logic.IsOrdered.leads_of_admits (h : L.IsOrdered) {p : Polarity} {j : Junction}
    (hp : p.admits j = true) (a : α) {x y : α} (hxy : p.Leads x y) :
    p.Leads (L.connective j a x) y := by
  cases p <;> cases j <;> try cases hp
  · rw [Logic.connective, h.both_eq_min]
    exact (min_le_right a x).trans hxy
  · rw [Logic.connective, h.either_eq_max]
    exact le_trans hxy (le_max_right a x)

/-- Parts that each lead to what is left of them, joined. -/
theorem Logic.IsOrdered.leads_joined (h : L.IsOrdered) (p : Polarity) (j : Junction)
    {β : Type} (whole : β → α) (left : β → Option α) (parts : List β)
    (each : ∀ x ∈ parts, ∀ b, left x = some b → p.Leads (whole x) b)
    (spared : p.admits j = true ∨ ∀ x ∈ parts, left x ≠ none) :
    p.Leads (L.joined j (parts.map whole)) (L.joined j (parts.filterMap left)) := by
  -- part by part: one that is kept leads on, one that is lost may be left out
  induction parts with
  | nil => exact p.leads_refl _
  | cons x xs ih =>
    have rest := ih (fun y hy => each y (by simp [hy]))
      (spared.imp_right fun hn y hy => hn y (by simp [hy]))
    rw [List.map_cons, Logic.joined_cons, List.filterMap_cons]
    cases hx : left x with
    | some b =>
      rw [Logic.joined_cons]
      exact h.leads_connective p j (each x (by simp) b hx) rest
    | none =>
      rcases spared with hp | hn
      · exact h.leads_of_admits hp (whole x) rest
      · exact absurd hx (hn x (by simp))

end

theorem eq_of_joined?_eq_some {α : Type} {join : List α → α} {as : List α} {t : α}
    (h : joined? join as = some t) : t = join as := by
  unfold joined? at h
  split at h
  · cases h
  · exact (Option.some.inj h).symm

theorem Clause.truth_of_allOf?_eq_some {α : Type} (L : Logic α) (v : Assignment α)
    {cs : List Clause} {c : Clause} (h : allOf? cs = some c) :
    cs ≠ [] ∧ c.truth L v = L.joined .conjunction (cs.map (Clause.truth L v)) := by
  have truth := Clause.truth_allOf? L v cs
  rw [h] at truth
  refine ⟨?_, eq_of_joined?_eq_some truth.symm⟩
  rintro rfl
  cases h

theorem Clause.truth_of_anyOf?_eq_some {α : Type} (L : Logic α) (v : Assignment α)
    {cs : List Clause} {c : Clause} (h : anyOf? cs = some c) :
    cs ≠ [] ∧ c.truth L v = L.joined .disjunction (cs.map (Clause.truth L v)) := by
  have truth := Clause.truth_anyOf? L v cs
  rw [h] at truth
  refine ⟨?_, eq_of_joined?_eq_some truth.symm⟩
  rintro rfl
  cases h

section

variable {α : Type} [LinearOrder α] {L : Logic α} {v u : Assignment α} {p : Polarity}

/-- Where something is left of the whole, no part is lost that may not be. -/
theorem Polarity.Spares.admits_or {β γ : Type} {j : Junction} {foreign : β → Prop}
    {parts : List β} {left : β → Option γ} (h : p.Spares j foreign parts)
    (lost : ∀ x ∈ parts, left x = none ↔ foreign x) (some_left : ¬ ∀ x ∈ parts, left x = none) :
    p.admits j = true ∨ ∀ x ∈ parts, left x ≠ none := by
  rcases h with hp | all | none
  · exact .inl hp
  · exact absurd (fun x hx => (lost x hx).2 (all x hx)) some_left
  · exact .inr fun x hx hl => none x hx ((lost x hx).1 hl)

/-- A filter leads to what is left of it if its entries do. -/
theorem Filter.leads_kept? (h : L.IsOrdered) {f : Filter} (solid : ∀ e ∈ f, e.IsSolid)
    (spared : p.Spares .conjunction (Entry.IsForeign m) f)
    (each : ∀ e ∈ f, ∀ c, e.kept? m = some c → p.Leads (e.wholeTruth m L v u) (c.truth L v))
    {d : Clause} (hd : f.kept? m = some d) :
    p.Leads (f.wholeTruth m L v u) (d.truth L v) := by
  have left : d.truth L v =
      L.conjunction (f.filterMap fun e => (e.kept? m).map (Clause.truth L v)) := by
    have combined := Clause.truth_combine L v (f.kept m)
    rw [← Filter.kept?, hd, Filter.kept_eq_filterMap, List.map_filterMap] at combined
    exact eq_of_joined?_eq_some combined.symm
  have some_left : ¬ ∀ e ∈ f, (e.kept? m).map (Clause.truth L v) = none := by
    simp [← Filter.kept?_eq_none_iff, hd]
  rw [left, Filter.wholeTruth, Filter.wholeTruths_eq_map]
  refine h.leads_joined p .conjunction _ _ f ?_ (spared.admits_or ?_ some_left)
  · intro e he b hb
    obtain ⟨c, hc, rfl⟩ := Option.map_eq_some_iff.1 hb
    exact each e he c hc
  · intro e he
    rw [Option.map_eq_none_iff]
    exact ⟨(solid e he).isForeign, Entry.IsForeign.kept?_eq_none⟩

/-- Filters that are joined lead to what is left of them if their entries do. -/
theorem Filter.leads_keptAll (h : L.IsOrdered) (j : Junction) {fs : List Filter}
    (solid : ∀ f ∈ fs, ∀ e ∈ f, e.IsSolid) (joint : p.Spares j (Filter.IsForeign m) fs)
    (spared : ∀ f ∈ fs, p.Spares .conjunction (Entry.IsForeign m) f)
    (each : ∀ f ∈ fs, ∀ e ∈ f, ∀ c, e.kept? m = some c →
      p.Leads (e.wholeTruth m L v u) (c.truth L v))
    (some_left : Filter.keptAll m fs ≠ []) :
    p.Leads (L.joined j (Filter.wholeTruthsAll m L v u fs))
      (L.joined j ((Filter.keptAll m fs).map (Clause.truth L v))) := by
  rw [Filter.wholeTruthsAll_eq_map, Filter.keptAll_eq_filterMap, List.map_filterMap]
  refine h.leads_joined p j _ _ fs ?_ (joint.admits_or ?_ ?_)
  · intro f hf b hb
    obtain ⟨d, hd, rfl⟩ := Option.map_eq_some_iff.1 hb
    exact Filter.leads_kept? h (solid f hf) (spared f hf) (each f hf) hd
  · intro f hf
    rw [Option.map_eq_none_iff, Filter.kept?_eq_none_iff]
    exact forall₂_congr fun e he => ⟨(solid f hf e he).isForeign, Entry.IsForeign.kept?_eq_none⟩
  · simpa
      using some_left

/-- An entry leads to what is left of it. -/
theorem Entry.OmitsSafely.leads_kept? (h : L.IsOrdered) {e : Entry} (ho : e.OmitsSafely m p)
    (hs : e.IsSolid) :
    ∀ c, e.kept? m = some c → p.Leads (e.wholeTruth m L v u) (c.truth L v) := by
  induction ho with
  | @all p filters joint each _ ih =>
    intro c hc
    cases hs with
    | all _ _ solid =>
      obtain ⟨some_left, truth⟩ := Clause.truth_of_allOf?_eq_some L v hc
      rw [truth]
      exact Filter.leads_keptAll h .conjunction solid joint each
        (fun f hf e he => ih f hf e he (solid f hf e he)) some_left
  | @any p filters joint each _ ih =>
    intro c hc
    cases hs with
    | any _ _ solid =>
      obtain ⟨some_left, truth⟩ := Clause.truth_of_anyOf?_eq_some L v hc
      rw [truth]
      exact Filter.leads_keptAll h .disjunction solid joint each
        (fun f hf e he => ih f hf e he (solid f hf e he)) some_left
  | @not p filter each _ ih =>
    intro c hc
    cases hs with
    | not _ solid =>
      -- the negation turns the order round, as it turns the polarity
      obtain ⟨d, hd, rfl⟩ := Option.map_eq_some_iff.1 hc
      have inner := Filter.leads_kept? (v := v) (u := u) h solid each
        (fun e he => ih e he (solid e he)) hd
      cases p with
      | positive => exact h.opposite_le inner
      | negative => exact h.opposite_le inner
  | raw p fragment =>
    intro c hc
    cases hc
    exact p.leads_refl _
  | field p key test =>
    intro c hc
    -- of a field something is left only if it is declared, and then all of it
    obtain ⟨path, hp, ht⟩ := Option.bind_eq_some_iff.1 hc
    have truth := FieldTest.truth_clause? L v key path test
    rw [ht] at truth
    split at truth
    · cases truth
    · rw [Option.map_some, Option.some.injEq] at truth
      rw [truth, Entry.wholeTruth, hp]
      exact p.leads_refl _

/-- What is left of a filter is at least as true as the filter. -/
theorem Filter.wholeTruth_le (h : L.IsOrdered) {f : Filter} (solid : ∀ e ∈ f, e.IsSolid)
    (safe : ∀ e ∈ f, e.OmitsSafely m .positive) {d : Clause} (hd : f.kept? m = some d) :
    f.wholeTruth m L v u ≤ d.truth L v :=
  Filter.leads_kept? (p := .positive) h solid (.inl rfl)
    (fun e he => (safe e he).leads_kept? h (solid e he)) hd

/-- What is left of a filter that holds holds. -/
theorem Filter.truth_eq_holds (h : L.IsOrdered) {f : Filter} (solid : ∀ e ∈ f, e.IsSolid)
    (safe : ∀ e ∈ f, e.OmitsSafely m .positive) {d : Clause} (hd : f.kept? m = some d)
    (hf : f.wholeTruth m L v u = L.holds) : d.truth L v = L.holds :=
  le_antisymm (h.le_holds _) (hf ▸ Filter.wholeTruth_le h solid safe hd)

end

/-- The lenient policy normalizes every filter, and a filter that is true stays true
if parts are left out of others in places only where that makes the whole weaker. -/
theorem Filter.holds_normalize_ignore (m : Model) (f : Filter) (solid : ∀ e ∈ f, e.IsSolid)
    (safe : ∀ e ∈ f, e.OmitsSafely m .positive) :
    ∃ n, f.normalize m .ignore = .ok n ∧ ∀ c, n.clause = some c →
      (∀ v u : Assignment Bool, f.wholeTruth m .boolean v u = true →
        c.truth .boolean v = true) ∧
      (∀ v u : Assignment Kleene, f.wholeTruth m .kleene v u = .yes →
        c.truth .kleene v = .yes) := by
  refine ⟨_, Filter.normalize_eq m .ignore f, ?_⟩
  intro c hc
  exact ⟨fun _ _ => Filter.truth_eq_holds Logic.isOrdered_boolean solid safe hc,
    fun _ _ => Filter.truth_eq_holds Logic.isOrdered_kleene solid safe hc⟩

theorem Entry.not_isForeign_field {key : String} {test : FieldTest}
    (h : m.declares key = true) : ¬ (Entry.field key test).IsForeign m := by
  rintro (_ | _ | _ | undeclared)
  simp [h] at undeclared

/-- A filter with undeclared keys beside others, within an alternative, among the
alternatives of an exclusion, and in an exclusion of their own. -/
def Filter.widened : Filter :=
  [.field "stage" (.value (.text "Won")),
    .any [[.field "name" (.value (.text "Acme")), .field "stage" .null], [.field "amount" .null]],
    .not [.any [[.field "closed" .null], [.field "owner" .null]]],
    .not [.field "closed" .null]]

theorem Filter.holds_normalize_ignore_widened :
    (∀ e ∈ widened, e.IsSolid) ∧ (∀ e ∈ widened, e.OmitsSafely .deals .positive) ∧
      ∃ n c, widened.normalize .deals .ignore = .ok n ∧ n.clause = some c ∧
        c.soql = "((Name = 'Acme' OR Amount = null) AND (NOT (Owner.Name = null)))" ∧
        c.truth .boolean ⟨fun path _ _ => path == "Name", fun _ => false⟩ = true := by
  have null : ∀ key, (Entry.field key .null).IsSolid := fun _ => .field rfl
  have value : ∀ key v, (Entry.field key (.value v)).IsSolid := fun _ _ => .field rfl
  have foreign : ∀ test, (Entry.field "closed" test).IsForeign .deals := fun _ => .field rfl
  have declared : ∀ key test, Model.deals.declares key = true →
      ¬ (Entry.field key test).IsForeign .deals := fun _ _ => Entry.not_isForeign_field
  have solid : ∀ e ∈ widened, e.IsSolid := by
    simp only [widened, List.forall_mem_cons]
    refine ⟨value .., .any (by simp) (by simp) ?_, .not (by simp) ?_, .not (by simp) ?_, ?_⟩
    · simp [null, value]
    · simpa using Entry.IsSolid.any (by simp) (by simp) (by simp [null])
    · simp [null]
    · simp
  have safe : ∀ e ∈ widened, e.OmitsSafely .deals .positive := by
    simp only [widened, List.forall_mem_cons]
    refine ⟨.field .., .any ?_ (fun _ _ => .inl rfl) ?_, .not ?_ ?_, .not (.inr (.inl ?_)) ?_, ?_⟩
    · -- something is left of each alternative
      refine .inr (.inr ?_)
      simp [Filter.IsForeign, declared "name" _ rfl, declared "amount" _ rfl]
    · simp [Entry.OmitsSafely.field]
    · refine .inr (.inr ?_)
      simp only [List.forall_mem_singleton]
      rintro (_ | parts)
      exact declared "owner" .null rfl (parts [.field "owner" .null] (by simp) _ (by simp))
    · simp only [List.forall_mem_singleton]
      refine .any (.inl rfl) ?_ (by simp [Entry.OmitsSafely.field])
      simp [Polarity.Spares, foreign, declared "owner" _ rfl]
    · simp [foreign]
    · simp [Entry.OmitsSafely.field]
    · simp
  refine ⟨solid, safe, ?_⟩
  obtain ⟨n, hn, hc⟩ := Filter.holds_normalize_ignore .deals widened solid safe
  cases hn
  refine ⟨_, _, rfl, rfl, by decide, (hc _ rfl).1 _
    ⟨fun key _ _ => key == "stage", fun _ => false⟩ ?_⟩
  rfl

/-- A filter with an alternative on an undeclared key. -/
def Filter.alternatives : Filter :=
  [.any [[.field "stage" (.value (.text "Won"))], [.field "name" (.value (.text "Acme"))]]]

/-- A filter that excludes by an undeclared key and a declared one together. -/
def Filter.exclusion : Filter :=
  [.not [.field "stage" (.value (.text "Lost")), .field "name" (.value (.text "Acme"))]]

/-- Omission may turn a true filter into a false tree: where an alternative is left
out, and where a part of what is excluded is. -/
theorem Filter.omission_restricts :
    ((∀ e ∈ alternatives, e.IsSolid) ∧ ∃ n c, ∃ v u : Assignment Bool,
      alternatives.normalize .deals .ignore = .ok n ∧ n.clause = some c ∧
        alternatives.wholeTruth .deals .boolean v u = true ∧ c.truth .boolean v = false) ∧
      (∀ e ∈ exclusion, e.IsSolid) ∧ ∃ n c, ∃ v u : Assignment Bool,
        exclusion.normalize .deals .ignore = .ok n ∧ n.clause = some c ∧
          exclusion.wholeTruth .deals .boolean v u = true ∧ c.truth .boolean v = false := by
  have fields : ∀ key text, (Entry.field key (.value (.text text))).IsSolid :=
    fun _ _ => .field rfl
  refine ⟨⟨?_, _, _, ⟨fun _ _ _ => false, fun _ => false⟩, ⟨fun _ _ _ => true, fun _ => true⟩,
    rfl, rfl, rfl, rfl⟩, ?_, _, _, ⟨fun _ _ _ => true, fun _ => true⟩,
    ⟨fun _ _ _ => false, fun _ => false⟩, rfl, rfl, rfl, rfl⟩
  · simpa [alternatives] using Entry.IsSolid.any (by simp) (by simp) (by simp [fields])
  · simpa [exclusion] using Entry.IsSolid.not (by simp) (by simp [fields])

end FilterQuery

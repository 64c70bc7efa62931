import FilterQuery.Proofs.Text.Boundary
import FilterQuery.Proofs.Value.Bare

/-!
# One difference

Lists that are the same but for one element, and texts that are the same but for one
piece. Main statement: texts that are put together in the same way from parts with one
difference have one difference, and they are the same just if the two pieces are.
-/

namespace FilterQuery

variable {α β : Type}

/-- The two lists have a common beginning and end, and between them one element each, which
are related. -/
def ListsDiffer (R : α → α → Prop) (as bs : List α) : Prop :=
  ∃ before a b after, as = before ++ a :: after ∧ bs = before ++ b :: after ∧ R a b

namespace ListsDiffer

variable {R : α → α → Prop} {S : β → β → Prop} {as bs : List α}

theorem intro {a b : α} (before after : List α) (h : R a b) :
    ListsDiffer R (before ++ a :: after) (before ++ b :: after) :=
  ⟨before, a, b, after, rfl, rfl, h⟩

theorem append_left (cs : List α) (h : ListsDiffer R as bs) :
    ListsDiffer R (cs ++ as) (cs ++ bs) := by
  obtain ⟨before, a, b, after, rfl, rfl, h⟩ := h
  rw [← List.append_assoc, ← List.append_assoc]
  exact intro _ _ h

theorem map {f : α → β} (related : ∀ a b, R a b → S (f a) (f b)) (h : ListsDiffer R as bs) :
    ListsDiffer S (as.map f) (bs.map f) := by
  obtain ⟨before, a, b, after, rfl, rfl, h⟩ := h
  rw [List.map_append, List.map_append, List.map_cons, List.map_cons]
  exact intro _ _ (related a b h)

end ListsDiffer

/-! ## Texts -/

/-- The two texts have a common beginning and end, and between them `a` and `b`. -/
def TextsDiffer (a b s t : String) : Prop :=
  ∃ before after, s = before ++ a ++ after ∧ t = before ++ b ++ after

namespace TextsDiffer

variable {a b s t : String}

theorem self (a b : String) : TextsDiffer a b a b :=
  ⟨"", "", by simp, by simp⟩

theorem append_left (u : String) (h : TextsDiffer a b s t) : TextsDiffer a b (u ++ s) (u ++ t) := by
  obtain ⟨before, after, rfl, rfl⟩ := h
  exact ⟨u ++ before, after, by simp only [String.append_assoc], by simp only [String.append_assoc]⟩

theorem append_right (u : String) (h : TextsDiffer a b s t) :
    TextsDiffer a b (s ++ u) (t ++ u) := by
  obtain ⟨before, after, rfl, rfl⟩ := h
  exact ⟨before, after ++ u, by simp only [String.append_assoc], by simp only [String.append_assoc]⟩

/-- The texts are the same just if what differs is. -/
theorem eq_iff (h : TextsDiffer a b s t) : s = t ↔ a = b := by
  obtain ⟨before, after, rfl, rfl⟩ := h
  constructor
  · intro same
    have chars := congrArg String.toList same
    simp only [String.toList_append, List.append_assoc] at chars
    exact String.toList_inj.1 (List.append_cancel_right (List.append_cancel_left chars))
  · rintro rfl
    rfl

theorem intercalate (sep : String) {ss ts : List String} (h : ListsDiffer (TextsDiffer a b) ss ts) :
    TextsDiffer a b (sep.intercalate ss) (sep.intercalate ts) := by
  obtain ⟨before, s, t, after, rfl, rfl, h⟩ := h
  induction before with
  | nil =>
    cases after with
    | nil => simpa only [List.nil_append, String.intercalate_singleton] using h
    | cons u us =>
      simp only [List.nil_append, String.intercalate_cons_cons, String.append_assoc]
      exact h.append_right _
  | cons u us ih =>
    cases us with
    | nil =>
      simp only [List.cons_append, List.nil_append, String.intercalate_cons_cons] at ih ⊢
      exact ih.append_left _
    | cons v vs =>
      simp only [List.cons_append, String.intercalate_cons_cons] at ih ⊢
      exact ih.append_left _

end TextsDiffer

@[simp]
theorem Literal.escape_append (cs ds : List Char) : escape (cs ++ ds) = escape cs ++ escape ds := by
  simp only [escape_eq_flatMap, List.flatMap_append]

/-- A bare word stands in a literal as it is. -/
theorem Literal.escape_of_isBareWord {s : String} (h : IsBareWord s) :
    escape s.toList = s.toList := by
  have plain : ∀ cs : List Char, (∀ c ∈ cs, isBare c = true) → escape cs = cs := by
    intro cs bare
    induction cs with
    | nil => rfl
    | cons c cs ih =>
      have first := bare c (by simp)
      have special : ¬(c = '\\' ∨ c = mark) := by
        rintro (rfl | rfl) <;> exact absurd first (by decide)
      rw [escape, if_neg special, ih fun d hd => bare d (by simp [hd])]
  exact plain _ h.2

theorem TextsDiffer.quote {a b s t : String} (ha : IsBareWord a) (hb : IsBareWord b)
    (h : TextsDiffer a b s t) : TextsDiffer a b (Literal.quote s) (Literal.quote t) := by
  obtain ⟨before, after, rfl, rfl⟩ := h
  refine ⟨String.ofList (Literal.mark :: Literal.escape before.toList),
    String.ofList (Literal.escape after.toList ++ [Literal.mark]), ?_, ?_⟩
  all_goals
    apply String.toList_inj.1
    simp [Literal.escape_of_isBareWord ha, Literal.escape_of_isBareWord hb]

end FilterQuery

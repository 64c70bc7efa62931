import FilterQuery.Text.Quotation

/-!
# Where words and literals end

A word ends at a blank, a comma or a closing parenthesis, and a literal at its
closing mark. What stands at the front of a text is therefore determined by the
text: each lemma here takes two texts that are equal as wholes, and concludes that
their front parts are equal and that what follows is equal.
-/

namespace FilterQuery

/-- A character that ends a word. -/
def isBoundary (c : Char) : Bool :=
  c == ' ' || c == ',' || c == ')'

/-- A text that does not carry a word on: it is empty or begins with a boundary. -/
def Ends : List Char → Prop
  | [] => True
  | c :: _ => isBoundary c = true

theorem ends_closing (x : List Char) : Ends (')' :: x) := rfl

/-- Characters that belong to words. -/
def IsUnbroken (cs : List Char) : Prop :=
  ∀ c ∈ cs, isBoundary c = false

instance : DecidablePred IsUnbroken := fun cs =>
  decidable_of_iff (cs.all (fun c => !isBoundary c) = true) (by simp [IsUnbroken])

/-- Characters of a class without boundaries. -/
theorem isUnbroken_of_forall {p : Char → Bool} {cs : List Char}
    (hp : p ' ' = false ∧ p ',' = false ∧ p ')' = false) (h : ∀ c ∈ cs, p c = true) :
    IsUnbroken cs := by
  intro c hc
  have hpc := h c hc
  cases hb : isBoundary c with
  | false => rfl
  | true =>
    simp only [isBoundary, Bool.or_eq_true, beq_iff_eq] at hb
    rcases hb with (rfl | rfl) | rfl
    · rw [hp.1] at hpc
      cases hpc
    · rw [hp.2.1] at hpc
      cases hpc
    · rw [hp.2.2] at hpc
      cases hpc

/-- A run of characters of a class ends where a character of another class begins. -/
theorem run_append_inj {p : Char → Bool} {u v x y : List Char} (hu : ∀ c ∈ u, p c = true)
    (hv : ∀ c ∈ v, p c = true) (hx : ∀ c ∈ x.head?, p c = false)
    (hy : ∀ c ∈ y.head?, p c = false) (h : u ++ x = v ++ y) : u = v ∧ x = y := by
  have run {w z : List Char} (hw : ∀ c ∈ w, p c = true) (hz : ∀ c ∈ z.head?, p c = false) :
      (w ++ z).takeWhile p = w := by
    rw [List.takeWhile_append_of_pos hw]
    cases z with
    | nil => exact List.append_nil w
    | cons c z => rw [List.takeWhile_cons_of_neg (by simp [hz c rfl]), List.append_nil]
  obtain rfl : u = v := by rw [← run hu hx, h, run hv hy]
  exact ⟨rfl, List.append_cancel_left h⟩

theorem Ends.isBoundary_head? {x : List Char} (h : Ends x) : ∀ c ∈ x.head?, isBoundary c = true := by
  cases x with
  | nil => exact nofun
  | cons d x => exact fun c hc => Option.some.inj hc ▸ h

theorem IsUnbroken.append_inj {u v x y : List Char} (hu : IsUnbroken u) (hv : IsUnbroken v)
    (hx : Ends x) (hy : Ends y) (h : u ++ x = v ++ y) : u = v ∧ x = y := by
  refine run_append_inj (p := fun c => !isBoundary c) ?_ ?_ ?_ ?_ h
  · exact fun c hc => by rw [hu c hc]; rfl
  · exact fun c hc => by rw [hv c hc]; rfl
  · exact fun c hc => by rw [hx.isBoundary_head? c hc]; rfl
  · exact fun c hc => by rw [hy.isBoundary_head? c hc]; rfl

/-- Characters that are each written as a run of their own, up to a mark that begins no run.
What may be concluded of one run may be concluded of all. -/
theorem runs_append_inj {f : Char → List Char} {mark : Char}
    (closed : ∀ (c : Char) (x y : List Char), f c ++ x ≠ mark :: y)
    (run : ∀ (c d : Char) (x y : List Char), f c ++ x = f d ++ y → c = d ∧ x = y)
    {cs ds x y : List Char} (h : cs.flatMap f ++ mark :: x = ds.flatMap f ++ mark :: y) :
    cs = ds ∧ x = y := by
  induction cs generalizing ds with
  | nil =>
    cases ds with
    | nil => exact ⟨rfl, (List.cons.inj h).2⟩
    | cons d ds =>
      rw [List.flatMap_cons, List.append_assoc] at h
      exact absurd h.symm (closed d _ _)
  | cons c cs ih =>
    cases ds with
    | nil =>
      rw [List.flatMap_cons, List.append_assoc] at h
      exact absurd h (closed c _ _)
    | cons d ds =>
      rw [List.flatMap_cons, List.flatMap_cons, List.append_assoc, List.append_assoc] at h
      obtain ⟨rfl, rest⟩ := run c d _ _ h
      obtain ⟨rfl, hxy⟩ := ih rest
      exact ⟨rfl, hxy⟩

namespace Literal

/-- A character as it stands in a literal. -/
def escapeChar (c : Char) : List Char :=
  if c = '\\' ∨ c = mark then ['\\', c] else [c]

theorem escape_eq_flatMap (cs : List Char) : escape cs = cs.flatMap escapeChar := by
  induction cs with
  | nil => rfl
  | cons c cs ih =>
    rw [escape, List.flatMap_cons, escapeChar]
    split <;> rw [ih] <;> rfl

theorem escapeChar_append_ne_mark (c : Char) (x y : List Char) :
    escapeChar c ++ x ≠ mark :: y := by
  intro h
  by_cases hc : c = '\\' ∨ c = mark
  · rw [escapeChar, if_pos hc] at h
    exact absurd (List.cons.inj h).1 (by decide)
  · rw [escapeChar, if_neg hc] at h
    exact hc (.inr (List.cons.inj h).1)

theorem escapeChar_append_inj (c d : Char) (x y : List Char)
    (h : escapeChar c ++ x = escapeChar d ++ y) : c = d ∧ x = y := by
  by_cases hc : c = '\\' ∨ c = mark <;> by_cases hd : d = '\\' ∨ d = mark
  · rw [escapeChar, if_pos hc, escapeChar, if_pos hd] at h
    exact List.cons.inj (List.cons.inj h).2
  · rw [escapeChar, if_pos hc, escapeChar, if_neg hd] at h
    exact absurd (.inl (List.cons.inj h).1.symm) hd
  · rw [escapeChar, if_neg hc, escapeChar, if_pos hd] at h
    exact absurd (.inl (List.cons.inj h).1) hc
  · rw [escapeChar, if_neg hc, escapeChar, if_neg hd] at h
    exact List.cons.inj h

/-- A literal ends where its contents do. -/
theorem escape_append_inj {s t x y : List Char}
    (h : escape s ++ mark :: x = escape t ++ mark :: y) : s = t ∧ x = y := by
  rw [escape_eq_flatMap, escape_eq_flatMap] at h
  exact runs_append_inj escapeChar_append_ne_mark escapeChar_append_inj h

end Literal

/-- A word does not go on into parts that each follow a separator, nor into what
ends it behind them. -/
theorem ends_flatMap_append {α : Type} (f : α → List Char) {s : Char}
    (hs : isBoundary s = true) (sep : List Char) (as : List α) {x : List Char} (hx : Ends x) :
    Ends (as.flatMap (fun a => s :: (sep ++ f a)) ++ x) := by
  cases as with
  | nil => exact hx
  | cons a as => exact hs

/-- Parts that each follow a separator, up to a text that does not go on with the separator.
What may be concluded of one part, where a text with the property `stop` follows it, may be
concluded of the list. -/
theorem parts_append_inj {α : Type} (stop : List Char → Prop) (f : α → List Char) {s : Char}
    (hs : ∀ z, stop (s :: z)) (sep : List Char) {as bs : List α} {x y : List Char}
    (hx : stop x ∧ x.head? ≠ some s) (hy : stop y ∧ y.head? ≠ some s)
    (part : ∀ a ∈ as, ∀ b ∈ bs, ∀ x y : List Char, stop x → stop y →
      f a ++ x = f b ++ y → a = b ∧ x = y)
    (h : as.flatMap (fun a => s :: (sep ++ f a)) ++ x =
      bs.flatMap (fun b => s :: (sep ++ f b)) ++ y) : as = bs ∧ x = y := by
  have later (cs : List α) {z : List Char} (hz : stop z) :
      stop (cs.flatMap (fun c => s :: (sep ++ f c)) ++ z) := by
    cases cs with
    | nil => exact hz
    | cons c cs => exact hs _
  induction as generalizing bs with
  | nil =>
    cases bs with
    | nil => exact ⟨rfl, h⟩
    | cons b bs => exact absurd (congrArg List.head? h) hx.2
  | cons a as ih =>
    cases bs with
    | nil => exact absurd (congrArg List.head? h).symm hy.2
    | cons b bs =>
      simp only [List.flatMap_cons, List.append_assoc, List.cons_append, List.cons.injEq,
        true_and, List.append_cancel_left_eq] at h
      obtain ⟨rfl, rest⟩ := part a (by simp) b (by simp) _ _ (later as hx.1) (later bs hy.1) h
      obtain ⟨rfl, hxy⟩ := ih (fun c hc d hd => part c (by simp [hc]) d (by simp [hd])) rest
      exact ⟨rfl, hxy⟩

/-- Parts that each follow a separator, up to a text that ends words and does not go
on with the separator. What may be concluded of one part may be concluded of the
list. -/
theorem flatMap_append_inj {α : Type} (f : α → List Char) {s : Char} (hs : isBoundary s = true)
    (sep : List Char) {as bs : List α} {x y : List Char} (hx : Ends x ∧ x.head? ≠ some s)
    (hy : Ends y ∧ y.head? ≠ some s)
    (part : ∀ a ∈ as, ∀ b ∈ bs, ∀ x y : List Char, Ends x → Ends y →
      f a ++ x = f b ++ y → a = b ∧ x = y)
    (h : as.flatMap (fun a => s :: (sep ++ f a)) ++ x =
      bs.flatMap (fun b => s :: (sep ++ f b)) ++ y) : as = bs ∧ x = y :=
  parts_append_inj Ends f (fun _ => hs) sep hx hy part h

/-- Parts with a comma and a blank between them. -/
@[simp] def separated {α : Type} (f : α → List Char) : List α → List Char
  | [] => []
  | a :: as => f a ++ as.flatMap fun b => ',' :: ([' '] ++ f b)

/-- Lists joined by a separator: the separator stands before all but the first. -/
@[simp]
theorem intercalate_cons {α : Type} (sep as : List α) (ass : List (List α)) :
    sep.intercalate (as :: ass) = as ++ ass.flatMap fun bs => sep ++ bs := by
  induction ass generalizing as with
  | nil => simp [List.intercalate]
  | cons bs ass ih =>
    rw [List.intercalate_cons_cons, ih, List.flatMap_cons, List.append_assoc, List.append_assoc]

theorem toList_separated (ss : List String) :
    (", ".intercalate ss).toList = separated String.toList ss := by
  cases ss with
  | nil => rfl
  | cons s ss => simp [separated, List.flatMap_map]

theorem separated_map {α β : Type} (f : β → List Char) (g : α → β) (as : List α) :
    separated f (as.map g) = separated (fun a => f (g a)) as := by
  cases as with
  | nil => rfl
  | cons a as => simp [separated, List.flatMap_map]

theorem notMem_separated {α : Type} {f : α → List Char} {c : Char} (hc : c ∉ [',', ' '])
    {as : List α} (h : ∀ a ∈ as, c ∉ f a) : c ∉ separated f as := by
  cases as with
  | nil => exact nofun
  | cons a as =>
    obtain ⟨first, others⟩ := List.forall_mem_cons.1 h
    rw [separated, List.mem_append, List.mem_flatMap]
    rintro (hm | ⟨b, hb, hm⟩)
    · exact first hm
    · rcases List.mem_append.1 (show c ∈ [',', ' '] ++ f b from hm) with hm | hm
      · exact hc hm
      · exact others b hb hm

/-- Lists of parts, of which there is at least one. -/
theorem separated_append_inj {α : Type} (f : α → List Char) {as bs : List α} (ha : as ≠ [])
    (hb : bs ≠ []) {x y : List Char} (hx : Ends x ∧ x.head? ≠ some ',')
    (hy : Ends y ∧ y.head? ≠ some ',')
    (part : ∀ a ∈ as, ∀ b ∈ bs, ∀ x y : List Char, Ends x → Ends y →
      f a ++ x = f b ++ y → a = b ∧ x = y)
    (h : separated f as ++ x = separated f bs ++ y) : as = bs ∧ x = y := by
  cases as with
  | nil => exact absurd rfl ha
  | cons a as =>
    cases bs with
    | nil => exact absurd rfl hb
    | cons b bs =>
      rw [separated, separated, List.append_assoc, List.append_assoc] at h
      obtain ⟨rfl, rest⟩ := part a (by simp) b (by simp) _ _
        (ends_flatMap_append f rfl [' '] as hx.1) (ends_flatMap_append f rfl [' '] bs hy.1) h
      obtain ⟨rfl, hxy⟩ := flatMap_append_inj f rfl [' '] hx hy
        (fun c hc d hd => part c (by simp [hc]) d (by simp [hd])) rest
      exact ⟨rfl, hxy⟩

end FilterQuery

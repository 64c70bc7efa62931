import FilterQuery.Text.Quotation

/-!
# Scanning for string literals

How a reader of the query language finds the literals in a text, from left to
right: a mark opens a literal, inside it a backslash makes the next character
literal, and the next mark that does not follow a backslash closes it. A text
that is scanned from outside a literal to outside again adds to what has been
seen so far and changes nothing else (`Reads`), so texts can be scanned piece by
piece. Main statement: a quoted text is one literal with that text in it.
-/

namespace FilterQuery.Literal

/-- Where a scan stands. Inside a literal it keeps the contents so far. -/
inductive Mode
  | outside
  | inside (contents : List Char)
  /-- Inside a literal, after a backslash. -/
  | escaped (contents : List Char)

/-- What has been seen of a text. -/
structure Scan where
  mode : Mode := .outside
  /-- The text outside the literals, with the two marks of each literal. -/
  outside : List Char := []
  /-- The decoded contents of the literals that have been closed. -/
  contents : List String := []

/-- Takes the next character. -/
def Scan.step (st : Scan) (c : Char) : Scan :=
  match st.mode with
  | .outside =>
      if c = mark then { st with mode := .inside [], outside := st.outside ++ [mark] }
      else { st with outside := st.outside ++ [c] }
  | .inside cs =>
      if c = '\\' then { st with mode := .escaped cs }
      else if c = mark then
        { mode := .outside, outside := st.outside ++ [mark],
          contents := st.contents ++ [String.ofList cs] }
      else { st with mode := .inside (cs ++ [c]) }
  | .escaped cs => { st with mode := .inside (cs ++ [c]) }

/-- The scan of a whole text. -/
def scan (s : String) : Scan :=
  s.toList.foldl Scan.step {}

/-- The text `s`, scanned from outside a literal, ends outside a literal; it has
`out` outside its literals, and `texts` in them. -/
def Reads (s : String) (out : List Char) (texts : List String) : Prop :=
  ∀ (before : List Char) (seen : List String),
    s.toList.foldl Scan.step ⟨.outside, before, seen⟩ =
      ⟨.outside, before ++ out, seen ++ texts⟩

theorem Reads.scan_eq {s : String} {out : List Char} {texts : List String}
    (h : Reads s out texts) : scan s = ⟨.outside, out, texts⟩ :=
  h [] []

theorem Reads.append {s t : String} {out out' : List Char} {texts texts' : List String}
    (hs : Reads s out texts) (ht : Reads t out' texts') :
    Reads (s ++ t) (out ++ out') (texts ++ texts') := by
  intro before seen
  rw [String.toList_append, List.foldl_append, hs, ht, List.append_assoc, List.append_assoc]

/-- A text without marks has no literals. -/
theorem reads_of_mark_notMem {s : String} (h : mark ∉ s.toList) : Reads s s.toList [] := by
  have chars : ∀ (cs before : List Char) (seen : List String), mark ∉ cs →
      cs.foldl Scan.step ⟨.outside, before, seen⟩ = ⟨.outside, before ++ cs, seen⟩ := by
    intro cs
    induction cs with
    | nil => intro before seen _; simp
    | cons c cs ih =>
      intro before seen hc
      have hne : c ≠ mark := fun e => hc (by simp [e])
      have step : Scan.step ⟨.outside, before, seen⟩ c =
          ⟨.outside, before ++ [c], seen⟩ := by
        simp only [Scan.step, if_neg hne]
      rw [List.foldl_cons, step, ih _ _ (fun hm => hc (by simp [hm]))]
      simp only [List.append_assoc, List.singleton_append]
  intro before seen
  rw [chars s.toList before seen h, List.append_nil]

/-- Escaped contents never close the literal, and decode to the contents. -/
@[simp]
theorem foldl_step_escape (cs sofar before : List Char) (seen : List String) :
    (escape cs).foldl Scan.step ⟨.inside sofar, before, seen⟩ =
      ⟨.inside (sofar ++ cs), before, seen⟩ := by
  induction cs generalizing sofar with
  | nil => simp [escape]
  | cons c cs ih =>
    by_cases hc : c = '\\' ∨ c = mark
    · -- the backslash takes any character along, also a mark
      have first : Scan.step ⟨.inside sofar, before, seen⟩ '\\' =
          ⟨.escaped sofar, before, seen⟩ := by
        simp only [Scan.step, if_true]
      have second : Scan.step ⟨.escaped sofar, before, seen⟩ c =
          ⟨.inside (sofar ++ [c]), before, seen⟩ := by
        simp only [Scan.step]
      rw [escape, if_pos hc, List.foldl_cons, List.foldl_cons, first, second, ih]
      simp only [List.append_assoc, List.singleton_append]
    · have first : Scan.step ⟨.inside sofar, before, seen⟩ c =
          ⟨.inside (sofar ++ [c]), before, seen⟩ := by
        simp only [not_or] at hc
        simp only [Scan.step, if_neg hc.1, if_neg hc.2]
      rw [escape, if_neg hc, List.foldl_cons, first, ih]
      simp only [List.append_assoc, List.singleton_append]

/-- A quoted text is one literal, and the text is what the literal contains. -/
theorem reads_quote (s : String) : Reads (quote s) [mark, mark] [s] := by
  intro before seen
  have opened : Scan.step ⟨.outside, before, seen⟩ mark =
      ⟨.inside [], before ++ [mark], seen⟩ := by
    simp only [Scan.step, if_true]
  have closed : Scan.step ⟨.inside s.toList, before ++ [mark], seen⟩ mark =
      ⟨.outside, before ++ [mark] ++ [mark], seen ++ [s]⟩ := by
    have hne : mark ≠ '\\' := by decide
    simp [Scan.step, if_neg hne]
  rw [toList_quote, List.foldl_cons, opened, List.foldl_append, foldl_step_escape,
    List.nil_append, List.foldl_cons, closed, List.foldl_nil, List.append_assoc,
    List.singleton_append]

/-! ## Two texts with the same text outside their literals -/

/-- Two texts that differ at most in the contents of their literals; those of the
first one are `texts`. -/
def ReadsAlike (s s' : String) (texts : List String) : Prop :=
  ∃ out texts', Reads s out texts ∧ Reads s' out texts'

theorem ReadsAlike.append {s s' t t' : String} {texts texts' : List String}
    (hs : ReadsAlike s s' texts) (ht : ReadsAlike t t' texts') :
    ReadsAlike (s ++ t) (s' ++ t') (texts ++ texts') := by
  obtain ⟨out, seen, h, h'⟩ := hs
  obtain ⟨out₂, seen₂, k, k'⟩ := ht
  exact ⟨out ++ out₂, seen ++ seen₂, h.append k, h'.append k'⟩

theorem readsAlike_quote (s s' : String) : ReadsAlike (quote s) (quote s') [s] :=
  ⟨[mark, mark], [s'], reads_quote s, reads_quote s'⟩

theorem readsAlike_of_mark_notMem {s : String} (h : mark ∉ s.toList) : ReadsAlike s s [] :=
  ⟨s.toList, [], reads_of_mark_notMem h, reads_of_mark_notMem h⟩

/-- A text without marks in front. -/
theorem ReadsAlike.after {s t t' : String} {texts : List String}
    (ht : ReadsAlike t t' texts) (hs : mark ∉ s.toList) :
    ReadsAlike (s ++ t) (s ++ t') texts :=
  (readsAlike_of_mark_notMem hs).append ht

/-- A text without marks behind. -/
theorem ReadsAlike.before {s s' t : String} {texts : List String}
    (hs : ReadsAlike s s' texts) (ht : mark ∉ t.toList) :
    ReadsAlike (s ++ t) (s' ++ t) texts := by
  simpa using hs.append (readsAlike_of_mark_notMem ht)

/-- Texts joined by a text without marks. -/
theorem readsAlike_intercalate {α : Type} (sep : String) (hsep : mark ∉ sep.toList)
    (f g : α → String) (texts : α → List String) (as : List α)
    (h : ∀ a ∈ as, ReadsAlike (f a) (g a) (texts a)) :
    ReadsAlike (sep.intercalate (as.map f)) (sep.intercalate (as.map g))
      (as.flatMap texts) := by
  induction as with
  | nil => exact readsAlike_of_mark_notMem (by simp)
  | cons a as ih =>
    have first := h a (by simp)
    have others := ih (fun b hb => h b (by simp [hb]))
    cases as with
    | nil => simpa using first
    | cons b bs =>
      simp only [List.map_cons, String.intercalate_cons_cons, List.flatMap_cons] at others ⊢
      rw [String.append_assoc, String.append_assoc]
      exact first.append (others.after hsep)

end FilterQuery.Literal

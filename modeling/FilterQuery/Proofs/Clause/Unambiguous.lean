import FilterQuery.Proofs.Clause.Reading
import FilterQuery.Proofs.Text.Boundary
import FilterQuery.Proofs.Value.Bare

/-!
# The text of a condition tree is unambiguous

A reading over paths that are words, and not the word of negation, is determined
by its characters, also when more text follows that begins with a blank or a
closing parenthesis. Main statement: two trees over such paths have the same text
just if they have the same reading.
-/

namespace FilterQuery

/-- A character of a path: an ASCII letter or digit, a low line, a point, or any
character beyond ASCII, so that the letters of every script are among them. -/
def isPathChar (c : Char) : Bool :=
  c.isAlphanum || c == '_' || c == '.' || decide (128 ≤ c.toNat)

/-- A path that is a word, and not the word of negation. -/
def IsPathWord (path : String) : Prop :=
  path ≠ "" ∧ path ≠ "NOT" ∧ ∀ c ∈ path.toList, isPathChar c = true

instance : DecidablePred IsPathWord := fun path =>
  decidable_of_iff (path ≠ "" ∧ path ≠ "NOT" ∧ path.toList.all isPathChar = true)
    (by simp [IsPathWord])

theorem IsPathWord.isUnbroken {path : String} (h : IsPathWord path) :
    IsUnbroken path.toList :=
  isUnbroken_of_forall (by decide) h.2.2

/-- No path opens a parenthesis. -/
theorem IsPathWord.toList_eq_cons {path : String} (h : IsPathWord path) :
    ∃ c cs, path.toList = c :: cs ∧ c ≠ '(' := by
  cases hp : path.toList with
  | nil => exact absurd (by simpa using hp) h.1
  | cons c cs =>
    have hc := h.2.2 c (by simp [hp])
    refine ⟨c, cs, rfl, ?_⟩
    rintro rfl
    exact absurd hc (by decide)

/-! ## Values -/

/-- A value that is a bare word unless it is quoted. -/
def Token.IsLegible (t : Token) : Prop :=
  t.isQuoted = false → IsBareWord t.text

theorem Value.isLegible_token (v : Value) : v.token.IsLegible :=
  fun h => Value.isBareWord_plain h

/-- The first character of a value: a mark, or a bare one. -/
theorem Token.IsLegible.chars_eq_cons {t : Token} (h : t.IsLegible) :
    ∃ c cs, t.chars = c :: cs ∧ (t.isQuoted = true ∧ c = Literal.mark ∨
      t.isQuoted = false ∧ isBare c = true) := by
  cases hq : t.isQuoted with
  | true =>
    refine ⟨Literal.mark, Literal.escape t.text.toList ++ [Literal.mark], ?_, .inl ⟨rfl, rfl⟩⟩
    simp [Token.chars, hq]
  | false =>
    obtain ⟨hne, hb⟩ := h hq
    obtain ⟨c, cs, hc⟩ := List.exists_cons_of_ne_nil hne
    refine ⟨c, cs, ?_, .inr ⟨rfl, hb c (by simp [hc])⟩⟩
    simp [Token.chars, hq, hc]

@[simp]
theorem Token.quoted_append (s : String) (x : List Char) :
    (⟨s, true⟩ : Token).chars ++ x =
      Literal.mark :: (Literal.escape s.toList ++ Literal.mark :: x) := by
  simp [chars]

@[simp]
theorem Token.bare_append (s : String) (x : List Char) :
    (⟨s, false⟩ : Token).chars ++ x = s.toList ++ x := by
  simp [chars]

theorem Token.append_inj {t u : Token} (ht : t.IsLegible) (hu : u.IsLegible) {x y : List Char}
    (hx : Ends x) (hy : Ends y) (h : t.chars ++ x = u.chars ++ y) : t = u ∧ x = y := by
  -- the first character tells whether the value is quoted
  have same : t.isQuoted = u.isQuoted := by
    obtain ⟨c, cs, htc, hc⟩ := ht.chars_eq_cons
    obtain ⟨d, ds, hud, hd⟩ := hu.chars_eq_cons
    rw [htc, hud, List.cons_append, List.cons_append, List.cons.injEq] at h
    rcases hc with ⟨hq, rfl⟩ | ⟨hq, hb⟩ <;> rcases hd with ⟨hq', rfl⟩ | ⟨hq', hb'⟩
    · rw [hq, hq']
    · exact absurd (h.1 ▸ hb') (by decide)
    · exact absurd (h.1 ▸ hb) (by decide)
    · rw [hq, hq']
  obtain ⟨s, q⟩ := t
  obtain ⟨s', q'⟩ := u
  cases same
  cases q with
  | true =>
    rw [quoted_append, quoted_append] at h
    obtain ⟨hs, hxy⟩ := Literal.escape_append_inj (List.cons.inj h).2
    cases String.toList_injective hs
    exact ⟨rfl, hxy⟩
  | false =>
    have unbroken : ∀ {s : String}, IsBareWord s → IsUnbroken s.toList :=
      fun hs => isUnbroken_of_forall (by decide) hs.2
    rw [bare_append, bare_append] at h
    obtain ⟨hs, hxy⟩ := IsUnbroken.append_inj (unbroken (ht rfl)) (unbroken (hu rfl)) hx hy h
    cases String.toList_injective hs
    exact ⟨rfl, hxy⟩

namespace Reading

@[simp]
theorem listChars_nil_append (x : List Char) : listChars [] ++ x = '(' :: ')' :: x :=
  rfl

@[simp]
theorem listChars_cons_append (t : Token) (ts : List Token) (x : List Char) :
    listChars (t :: ts) ++ x =
      '(' :: (t.chars ++ (ts.flatMap (fun u => ',' :: ([' '] ++ u.chars)) ++ ')' :: x)) := by
  simp [listChars]

theorem listChars_append_inj {ts us : List Token} (ht : ∀ t ∈ ts, t.IsLegible)
    (hu : ∀ u ∈ us, u.IsLegible) {x y : List Char}
    (h : listChars ts ++ x = listChars us ++ y) : ts = us ∧ x = y := by
  -- a value never begins with the parenthesis that closes an empty list
  have open_ : ∀ {t : Token}, t.IsLegible → ∀ x y : List Char, t.chars ++ x ≠ ')' :: y := by
    intro t ht x y e
    obtain ⟨c, cs, htc, hc⟩ := ht.chars_eq_cons
    rw [htc, List.cons_append, List.cons.injEq] at e
    rcases hc with ⟨_, rfl⟩ | ⟨_, hb⟩
    · exact absurd e.1 (by decide)
    · exact absurd (e.1 ▸ hb) (by decide)
  cases ts with
  | nil =>
    cases us with
    | nil => simpa using h
    | cons u us =>
      rw [listChars_nil_append, listChars_cons_append] at h
      exact absurd (List.cons.inj h).2.symm (open_ (hu u (by simp)) _ _)
  | cons t ts =>
    cases us with
    | nil =>
      rw [listChars_nil_append, listChars_cons_append] at h
      exact absurd (List.cons.inj h).2 (open_ (ht t (by simp)) _ _)
    | cons u us =>
      rw [listChars_cons_append, listChars_cons_append] at h
      obtain ⟨rfl, rest⟩ := Token.append_inj (ht t (by simp)) (hu u (by simp))
        (ends_flatMap_append Token.chars rfl [' '] ts (ends_closing x))
        (ends_flatMap_append Token.chars rfl [' '] us (ends_closing y)) (List.cons.inj h).2
      obtain ⟨rfl, hxy⟩ := flatMap_append_inj Token.chars rfl [' ']
        ⟨ends_closing x, by simp⟩ ⟨ends_closing y, by simp⟩
        (fun t' ht' u' hu' _ _ hx hy e => Token.append_inj (ht t' (by simp [ht']))
          (hu u' (by simp [hu'])) hx hy e) rest
      exact ⟨rfl, (List.cons.inj hxy).2⟩

/-! ## Readings -/

/-- A reading over paths that are words, of legible values, without raw fragments. -/
inductive Legible : Reading → Prop
  | compare {path : String} {r : Comparison} {t : Token} (hp : IsPathWord path)
      (ht : t.IsLegible) : Legible (.compare path r t)
  | member {path : String} {negated : Bool} {ts : List Token} (hp : IsPathWord path)
      (ht : ∀ t ∈ ts, t.IsLegible) : Legible (.member path negated ts)
  | single {node : Reading} (h : Legible node) : Legible (.single node)
  | join {j : Junction} {first second : Reading} {others : List Reading} (hf : Legible first)
      (hs : Legible second) (ho : ∀ n ∈ others, Legible n) : Legible (.join j first second others)
  | not {node : Reading} (h : Legible node) : Legible (.not node)

theorem sign_isUnbroken (r : Comparison) : IsUnbroken r.sign.toList := by
  cases r <;> decide

theorem sign_injective {r s : Comparison} (h : r.sign.toList = s.sign.toList) : r = s := by
  have h := String.toList_injective h
  revert h
  cases r <;> cases s <;> decide

theorem keyword_injective {j k : Junction} (h : j.keyword.toList = k.keyword.toList) :
    j = k := by
  have h := String.toList_injective h
  revert h
  cases j <;> cases k <;> decide

/-- Words that are followed by a blank. -/
theorem append_blank_inj {u v x y : List Char} (hu : IsUnbroken u) (hv : IsUnbroken v)
    (h : u ++ ' ' :: x = v ++ ' ' :: y) : u = v ∧ x = y := by
  obtain ⟨rfl, hxy⟩ := IsUnbroken.append_inj hu hv (by rfl) (by rfl) h
  exact ⟨rfl, (List.cons.inj hxy).2⟩

theorem path_append_blank_inj {p q : String} (hp : IsPathWord p) (hq : IsPathWord q)
    {x y : List Char} (h : p.toList ++ ' ' :: x = q.toList ++ ' ' :: y) : p = q ∧ x = y := by
  obtain ⟨hpq, hxy⟩ := append_blank_inj hp.isUnbroken hq.isUnbroken h
  exact ⟨String.toList_injective hpq, hxy⟩

/-! What follows the characters of a reading is moved behind their last part. -/

theorem compare_append (path : String) (r : Comparison) (t : Token) (x : List Char) :
    (compare path r t).chars ++ x =
      path.toList ++ ' ' :: (r.sign.toList ++ ' ' :: (t.chars ++ x)) := by
  simp

theorem member_append (path : String) (negated : Bool) (ts : List Token) (x : List Char) :
    (member path negated ts).chars ++ x = path.toList ++ ' ' :: (memberChars negated ts ++ x) := by
  simp

theorem not_append (n : Reading) (x : List Char) :
    (not n).chars ++ x = '(' :: ("NOT".toList ++ ' ' :: (n.chars ++ ')' :: x)) := by
  simp

@[simp]
theorem memberChars_true_append (ts : List Token) (x : List Char) :
    memberChars true ts ++ x = "NOT".toList ++ ' ' :: ("IN".toList ++ ' ' :: (listChars ts ++ x)) := by
  simp [memberChars]

@[simp]
theorem memberChars_false_append (ts : List Token) (x : List Char) :
    memberChars false ts ++ x = "IN".toList ++ ' ' :: (listChars ts ++ x) := by
  simp [memberChars]

/-- No reading begins with the word of negation. -/
theorem Legible.append_ne_not {n : Reading} (h : Legible n) (x y : List Char) :
    n.chars ++ x ≠ "NOT".toList ++ ' ' :: y := by
  have path : ∀ {p : String}, IsPathWord p → ∀ z : List Char,
      p.toList ++ ' ' :: z ≠ "NOT".toList ++ ' ' :: y := by
    intro p hp z e
    have unbroken : IsUnbroken "NOT".toList := by decide
    exact hp.2.1 (String.toList_injective (append_blank_inj hp.isUnbroken unbroken e).1)
  cases h with
  | compare hp ht =>
    rw [compare_append]
    exact path hp _
  | member hp ht =>
    rw [member_append]
    exact path hp _
  | single h => exact fun e => absurd (List.cons.inj e).1 (by decide)
  | join hf hs ho => exact fun e => absurd (List.cons.inj e).1 (by decide)
  | not h => exact fun e => absurd (List.cons.inj e).1 (by decide)

theorem memberChars_append_inj {m n : Bool} {ts us : List Token} (ht : ∀ t ∈ ts, t.IsLegible)
    (hu : ∀ u ∈ us, u.IsLegible) {x y : List Char}
    (h : memberChars m ts ++ x = memberChars n us ++ y) : (m = n ∧ ts = us) ∧ x = y := by
  have unbroken : IsUnbroken "NOT".toList ∧ IsUnbroken "IN".toList := by
    decide
  -- the lists stand behind the same words, or the first words differ
  cases m <;> cases n <;> simp only [memberChars_true_append, memberChars_false_append] at h
  · obtain ⟨_, h⟩ := append_blank_inj unbroken.2 unbroken.2 h
    obtain ⟨rfl, hxy⟩ := listChars_append_inj ht hu h
    exact ⟨⟨rfl, rfl⟩, hxy⟩
  · exact absurd (append_blank_inj unbroken.2 unbroken.1 h).1 (by decide)
  · exact absurd (append_blank_inj unbroken.1 unbroken.2 h).1 (by decide)
  · obtain ⟨_, h⟩ := append_blank_inj unbroken.1 unbroken.1 h
    obtain ⟨_, h⟩ := append_blank_inj unbroken.2 unbroken.2 h
    obtain ⟨rfl, hxy⟩ := listChars_append_inj ht hu h
    exact ⟨⟨rfl, rfl⟩, hxy⟩

/-- A comparison has another sign than a membership test has words. -/
theorem sign_append_ne_memberChars (r : Comparison) (negated : Bool) (ts : List Token)
    (x y : List Char) : r.sign.toList ++ ' ' :: x ≠ memberChars negated ts ++ y := by
  have words : ∀ w ∈ ["NOT", "IN"], IsUnbroken w.toList ∧ r.sign.toList ≠ w.toList := by
    cases r <;> decide
  intro h
  cases negated <;> simp only [memberChars_true_append, memberChars_false_append] at h
  · obtain ⟨unbroken, hne⟩ := words "IN" (by simp)
    exact hne (append_blank_inj (sign_isUnbroken r) unbroken h).1
  · obtain ⟨unbroken, hne⟩ := words "NOT" (by simp)
    exact hne (append_blank_inj (sign_isUnbroken r) unbroken h).1

/-- A reading that stands between parentheses. -/
def isGroup : Reading → Bool
  | .single _ | .join .. | .not _ => true
  | .compare .. | .member .. | .raw _ => false

/-- The first character tells whether a reading is a group. -/
theorem Legible.chars_eq_cons {n : Reading} (h : Legible n) :
    ∃ c cs, n.chars = c :: cs ∧ (n.isGroup = true ↔ c = '(') := by
  cases h with
  | compare hp _ | member hp _ =>
    obtain ⟨c, cs, hc, hne⟩ := hp.toList_eq_cons
    refine ⟨c, _, by rw [chars, hc, List.cons_append], ?_⟩
    simp [isGroup, hne]
  | single | join | not => exact ⟨'(', _, rfl, by simp [isGroup]⟩

theorem Legible.isGroup_eq {a b : Reading} (ha : Legible a) (hb : Legible b) {x y : List Char}
    (h : a.chars ++ x = b.chars ++ y) : a.isGroup = b.isGroup := by
  obtain ⟨c, cs, hac, hc⟩ := ha.chars_eq_cons
  obtain ⟨d, ds, hbd, hd⟩ := hb.chars_eq_cons
  rw [hac, hbd, List.cons_append, List.cons_append, List.cons.injEq] at h
  rw [Bool.eq_iff_iff, hc, hd, h.1]

/-- What the front of a text determines: the reading, and the text behind it. -/
def Determined (a : Reading) : Prop :=
  ∀ b : Reading, Legible b → ∀ x y : List Char, Ends x → Ends y →
    a.chars ++ x = b.chars ++ y → a = b ∧ x = y

theorem determined_compare {p : String} {r : Comparison} {t : Token} (hp : IsPathWord p)
    (ht : t.IsLegible) : Determined (.compare p r t) := by
  intro b hb x y hx hy h
  have same := Legible.isGroup_eq (.compare hp ht) hb h
  cases hb with
  | single | join | not => cases same
  | compare hq hu =>
    rw [compare_append, compare_append] at h
    obtain ⟨rfl, rest⟩ := path_append_blank_inj hp hq h
    obtain ⟨hr, value⟩ := append_blank_inj (sign_isUnbroken _) (sign_isUnbroken _) rest
    obtain ⟨rfl, hxy⟩ := Token.append_inj ht hu hx hy value
    cases sign_injective hr
    exact ⟨rfl, hxy⟩
  | member hq hu =>
    rw [compare_append, member_append] at h
    exact absurd (path_append_blank_inj hp hq h).2 (sign_append_ne_memberChars _ _ _ _ _)

theorem determined_member {p : String} {negated : Bool} {ts : List Token} (hp : IsPathWord p)
    (ht : ∀ t ∈ ts, t.IsLegible) : Determined (.member p negated ts) := by
  intro b hb x y hx hy h
  have same := Legible.isGroup_eq (.member hp ht) hb h
  cases hb with
  | single | join | not => cases same
  | compare hq hu =>
    rw [compare_append, member_append] at h
    exact absurd (path_append_blank_inj hp hq h).2.symm (sign_append_ne_memberChars _ _ _ _ _)
  | member hq hu =>
    rw [member_append, member_append] at h
    obtain ⟨rfl, rest⟩ := path_append_blank_inj hp hq h
    obtain ⟨⟨rfl, rfl⟩, hxy⟩ := memberChars_append_inj ht hu rest
    exact ⟨rfl, hxy⟩

/-! ## Groups

A group of one reading is a junction without others, whichever its word would be. -/

theorem single_append (j : Junction) (n : Reading) (x : List Char) :
    (single n).chars ++ x = '(' :: (n.chars ++ (othersChars j [] ++ ')' :: x)) := by
  simp [chars, othersChars]

theorem join_append (j : Junction) (first second : Reading) (others : List Reading)
    (x : List Char) : (join j first second others).chars ++ x =
      '(' :: (first.chars ++ (othersChars j (second :: others) ++ ')' :: x)) := by
  simp [chars, othersChars]

theorem othersChars_cons_append (j : Junction) (n : Reading) (ns : List Reading) (x : List Char) :
    othersChars j (n :: ns) ++ x =
      ' ' :: (j.keyword.toList ++ ' ' :: (n.chars ++ (othersChars j ns ++ x))) := by
  simp [wordChars]

theorem ends_othersChars_append (j : Junction) (ns : List Reading) (x : List Char) :
    Ends (othersChars j ns ++ ')' :: x) := by
  rw [othersChars_eq_flatMap]
  exact ends_flatMap_append chars rfl (wordChars j) ns (ends_closing x)

theorem othersChars_append_inj {j k : Junction} {ns ms : List Reading}
    (hn : ∀ n ∈ ns, Determined n) (hm : ∀ m ∈ ms, Legible m) {x y : List Char}
    (h : othersChars j ns ++ ')' :: x = othersChars k ms ++ ')' :: y) :
    (ns = ms ∧ (ns = [] ∨ j = k)) ∧ x = y := by
  -- the two junctions have the same word, where there is a word
  have word : ns = [] ∧ ms = [] ∨ j = k := by
    cases ns with
    | nil =>
      cases ms with
      | nil => exact .inl ⟨rfl, rfl⟩
      | cons m ms => exact absurd (List.cons.inj h).1 (by decide)
    | cons n ns =>
      cases ms with
      | nil => exact absurd (List.cons.inj h).1 (by decide)
      | cons m ms =>
        have unbroken : ∀ i : Junction, IsUnbroken i.keyword.toList := by
          intro i
          cases i <;> decide
        rw [othersChars_cons_append, othersChars_cons_append] at h
        exact .inr (keyword_injective
          (append_blank_inj (unbroken j) (unbroken k) (List.cons.inj h).2).1)
  rcases word with ⟨rfl, rfl⟩ | rfl
  · exact ⟨⟨rfl, .inl rfl⟩, (List.cons.inj h).2⟩
  · rw [othersChars_eq_flatMap, othersChars_eq_flatMap] at h
    obtain ⟨rfl, hxy⟩ := flatMap_append_inj chars rfl (wordChars j)
      ⟨ends_closing x, by simp⟩ ⟨ends_closing y, by simp⟩
      (fun n hn' m hm' x y hx hy e => hn n hn' m (hm m hm') x y hx hy e) h
    exact ⟨⟨rfl, .inr rfl⟩, (List.cons.inj hxy).2⟩

/-- The first reading of a group and the others, with the word between them. -/
theorem group_append_inj {j k : Junction} {a b : Reading} {ns ms : List Reading}
    (ha : Determined a) (hb : Legible b) (hn : ∀ n ∈ ns, Determined n)
    (hm : ∀ m ∈ ms, Legible m) {x y : List Char}
    (h : '(' :: (a.chars ++ (othersChars j ns ++ ')' :: x)) =
      '(' :: (b.chars ++ (othersChars k ms ++ ')' :: y))) :
    (a = b ∧ ns = ms ∧ (ns = [] ∨ j = k)) ∧ x = y := by
  obtain ⟨rfl, rest⟩ := ha b hb _ _ (ends_othersChars_append j ns x)
    (ends_othersChars_append k ms y) (List.cons.inj h).2
  obtain ⟨others, hxy⟩ := othersChars_append_inj hn hm rest
  exact ⟨⟨rfl, others⟩, hxy⟩

theorem determined_single {n : Reading} (hn : Legible n) (ih : Determined n) :
    Determined (.single n) := by
  intro b hb x y hx hy h
  have same := Legible.isGroup_eq (.single hn) hb h
  cases hb with
  | compare | member => cases same
  | single hm =>
    rw [single_append .conjunction, single_append .conjunction] at h
    obtain ⟨⟨rfl, _⟩, hxy⟩ := group_append_inj ih hm (by simp) (by simp) h
    exact ⟨rfl, hxy⟩
  | @join k first second others hf hs ho =>
    -- a closing parenthesis here, the word of a junction there
    rw [single_append k, join_append] at h
    obtain ⟨⟨_, noOthers, _⟩, _⟩ := group_append_inj ih hf (by simp) (by simpa using ⟨hs, ho⟩) h
    cases noOthers
  | not hm =>
    rw [single_append .conjunction, not_append] at h
    exact absurd (List.cons.inj h).2 (hn.append_ne_not _ _)

theorem determined_join {j : Junction} {first second : Reading} {others : List Reading}
    (hf : Legible first) (hs : Legible second) (ho : ∀ n ∈ others, Legible n)
    (ihf : Determined first) (ihs : Determined second) (iho : ∀ n ∈ others, Determined n) :
    Determined (.join j first second others) := by
  intro b hb x y hx hy h
  have same := Legible.isGroup_eq (.join hf hs ho) hb h
  cases hb with
  | compare | member => cases same
  | single hm =>
    rw [single_append j, join_append] at h
    obtain ⟨⟨_, noOthers, _⟩, _⟩ := group_append_inj ihf hm (by simpa using ⟨ihs, iho⟩) (by simp) h
    cases noOthers
  | join hf' hs' ho' =>
    rw [join_append, join_append] at h
    obtain ⟨⟨rfl, rest, word⟩, hxy⟩ := group_append_inj ihf hf' (by simpa using ⟨ihs, iho⟩)
      (by simpa using ⟨hs', ho'⟩) h
    cases rest
    rcases word with empty | rfl
    · cases empty
    · exact ⟨rfl, hxy⟩
  | not hm =>
    rw [join_append, not_append] at h
    exact absurd (List.cons.inj h).2 (hf.append_ne_not _ _)

theorem determined_not {n : Reading} (hn : Legible n) (ih : Determined n) :
    Determined (.not n) := by
  intro b hb x y hx hy h
  have same := Legible.isGroup_eq (.not hn) hb h
  cases hb with
  | compare | member => cases same
  | single hm =>
    rw [not_append, single_append .conjunction] at h
    exact absurd (List.cons.inj h).2.symm (hm.append_ne_not _ _)
  | join hf hs ho =>
    rw [not_append, join_append] at h
    exact absurd (List.cons.inj h).2.symm (hf.append_ne_not _ _)
  | not hm =>
    rw [not_append, not_append, List.cons.injEq, List.append_cancel_left_eq, List.cons.injEq] at h
    obtain ⟨rfl, rest⟩ := ih _ hm (')' :: x) (')' :: y) rfl rfl h.2.2
    exact ⟨rfl, (List.cons.inj rest).2⟩

/-- A legible reading is determined by its characters. -/
theorem Legible.determined {n : Reading} (h : Legible n) : Determined n := by
  induction h with
  | compare hp ht => exact determined_compare hp ht
  | member hp ht => exact determined_member hp ht
  | single hn ih => exact determined_single hn ih
  | join hf hs ho ihf ihs iho => exact determined_join hf hs ho ihf ihs iho
  | not hn ih => exact determined_not hn ih

/-- Legible readings of the same characters are the same. -/
theorem Legible.eq_of_chars_eq {a b : Reading} (ha : Legible a) (hb : Legible b)
    (h : a.chars = b.chars) : a = b := by
  have ends : Ends [] := trivial
  exact (ha.determined b hb [] [] ends ends (by rw [h])).1

end Reading

/-! ## Trees -/

open Reading (Legible)

theorem Operand.isLegible_singleToken (o : Operand) : o.singleToken.IsLegible := by
  cases o with
  | value v => exact v.isLegible_token
  | none | list | range => exact Value.isLegible_token .null

theorem Operand.isLegible_patternToken (o : Operand) (before after : String) :
    (o.patternToken before after).IsLegible := by
  cases o with
  | value v => exact nofun
  | none | list | range => exact Value.isLegible_token .null

theorem Operand.isLegible_boundTokens (o : Operand) :
    o.boundTokens.1.IsLegible ∧ o.boundTokens.2.IsLegible := by
  cases o with
  | range low high => exact ⟨low.isLegible_token, high.isLegible_token⟩
  | none | value | list => exact ⟨Value.isLegible_token .null, Value.isLegible_token .null⟩

theorem Condition.legible_reading {c : Condition} (h : IsPathWord c.path) :
    Legible c.reading := by
  obtain ⟨key, path, op, operand⟩ := c
  have members : ∀ t ∈ operand.members.map Value.token, t.IsLegible := by
    intro t ht
    obtain ⟨v, _, rfl⟩ := List.mem_map.1 ht
    exact v.isLegible_token
  cases op with
  | eq | ne | gt | gte | lt | lte => exact .compare h operand.isLegible_singleToken
  | like | startsWith | endsWith => exact .compare h (operand.isLegible_patternToken _ _)
  | between =>
    obtain ⟨low, high⟩ := operand.isLegible_boundTokens
    exact .join (.compare h low) (.compare h high) (by simp)
  | isNull | isNotNull => exact .compare h (Value.isLegible_token .null)
  | isIn | notIn => exact .member h members

namespace Clause

theorem legible_ofNodes {j : Junction} {nodes : List Clause} (hne : nodes ≠ [])
    (h : ∀ c ∈ nodes, Legible c.reading) : Legible (.ofNodes j (readings nodes)) := by
  rw [readings_eq_map]
  match nodes, h with
  | [c], h => exact .single (h c (by simp))
  | c :: d :: rest, h =>
    refine .join (h c (by simp)) (h d (by simp)) ?_
    intro n hn
    obtain ⟨e, he, rfl⟩ := List.mem_map.1 hn
    exact h e (by simp [he])

/-- What makes the text of a tree unambiguous: no raw fragments, no empty
junctions, and paths that are words. -/
structure IsReadable (c : Clause) : Prop where
  rawFree : c.isRawFree = true
  filled : c.isFilled = true
  paths : ∀ t ∈ c.conditions, IsPathWord t.path

theorem isReadable_all {nodes : List Clause} (h : (Clause.all nodes).IsReadable) :
    nodes ≠ [] ∧ ∀ c ∈ nodes, c.IsReadable := by
  obtain ⟨hr, hf, hp⟩ := h
  rw [isFilled, Bool.and_eq_true] at hf
  constructor
  · rintro rfl
    exact absurd hf.1 (by decide)
  · intro c hc
    exact ⟨areRawFree_iff.1 hr c hc, areFilled_iff.1 hf.2 c hc,
      fun t ht => hp t (mem_conditions_of_mem hc ht)⟩

theorem isReadable_any {nodes : List Clause} (h : (Clause.any nodes).IsReadable) :
    nodes ≠ [] ∧ ∀ c ∈ nodes, c.IsReadable :=
  isReadable_all ⟨h.rawFree, h.filled, h.paths⟩

theorem legible_reading {c : Clause} (h : c.IsReadable) : Legible c.reading := by
  induction c with
  | all nodes ih =>
    obtain ⟨hne, hc⟩ := isReadable_all h
    exact legible_ofNodes hne fun c hm => ih c hm (hc c hm)
  | any nodes ih =>
    obtain ⟨hne, hc⟩ := isReadable_any h
    exact legible_ofNodes hne fun c hm => ih c hm (hc c hm)
  | not node ih => exact .not (ih ⟨h.rawFree, h.filled, h.paths⟩)
  | raw fragment => exact absurd h.rawFree (by simp [isRawFree])
  | test c => exact Condition.legible_reading (h.paths c (by simp [conditions]))

/-- Two trees have the same text just if they have the same reading. Operands need
not fit: one that does not is read as it is written. -/
theorem soql_eq_iff_reading_eq {a b : Clause} (ha : a.IsReadable) (hb : b.IsReadable) :
    a.soql = b.soql ↔ a.reading = b.reading := by
  rw [← String.toList_inj, toList_soql, toList_soql]
  constructor
  · exact (legible_reading ha).eq_of_chars_eq (legible_reading hb)
  · intro h
    rw [h]

/-- A range, a test for null and a pattern, each alone. -/
def ranged : Clause :=
  .any [.test (.between "age" "Age" (.int 1) (.int 2)),
    .all [.test (.isNull "owner" "Owner.Name")],
    .test (.compare "name" "Name" .startsWith (.text "x') AND (NOT"))]

/-- What `ranged` says, by comparisons and a pattern with its wildcard. -/
def spelled : Clause :=
  .any [.all [.test (.compare "from" "Age" .gte (.int 1)),
      .test (.compare "to" "Age" .lte (.int 2))],
    .any [.test (.compare "owner" "Owner.Name" .eq .null)],
    .test (.compare "name" "Name" .like (.text "x') AND (NOT%"))]

/-- `spelled` with a text where there was a number. -/
def misspelled : Clause :=
  .any [.all [.test (.compare "from" "Age" .gte (.text "1")),
      .test (.compare "to" "Age" .lte (.int 2))],
    .any [.test (.compare "owner" "Owner.Name" .eq .null)],
    .test (.compare "name" "Name" .like (.text "x') AND (NOT%"))]

theorem soql_eq_iff_reading_eq_ranged :
    (ranged.IsReadable ∧ spelled.IsReadable ∧ ranged.soql = spelled.soql) ∧
      misspelled.IsReadable ∧ ranged.soql ≠ misspelled.soql := by
  have hr : ranged.IsReadable := ⟨by decide, by decide, by decide⟩
  have hs : spelled.IsReadable := ⟨by decide, by decide, by decide⟩
  have hm : misspelled.IsReadable := ⟨by decide, by decide, by decide⟩
  refine ⟨⟨hr, hs, (soql_eq_iff_reading_eq hr hs).2 rfl⟩, hm, fun h => ?_⟩
  have same := (soql_eq_iff_reading_eq hr hm).1 h
  injection same with _ first
  injection first with _ low
  injection low with _ _ token
  exact absurd token (by decide)

end Clause

end FilterQuery

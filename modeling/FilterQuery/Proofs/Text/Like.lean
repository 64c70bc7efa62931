import Mathlib.Data.List.Infix

/-!
# Patterns of the query language

In a pattern `%` stands for any run of characters and `_` for any one; a backslash before
one of them takes its meaning away. Every other character stands for itself, and so does a
backslash before anything else. A pattern is read into parts, and the parts are matched one
after the other. Main statement: a pattern has a text of its own for a match, no longer than
itself; hence it matches what holds its own characters only if it is without wildcards.
-/

namespace FilterQuery.Like

/-- A part of a pattern. -/
inductive Part
  /-- Any characters, perhaps none. -/
  | run
  /-- Any one character. -/
  | one
  | exactly (c : Char)
deriving DecidableEq, Repr

def isWildcard (c : Char) : Bool :=
  c == '%' || c == '_'

/-- What a character stands for. -/
def Part.ofChar (c : Char) : Part :=
  if c = '%' then .run else if c = '_' then .one else .exactly c

/-- The parts of a pattern. -/
def parts : List Char → List Part
  | [] => []
  | [c] => [.ofChar c]
  | c :: d :: rest =>
      if c = '\\' ∧ isWildcard d = true then .exactly d :: parts rest
      else .ofChar c :: parts (d :: rest)

/-- Whether a text is matched by parts, one after the other. -/
@[simp] def Matches : List Part → List Char → Prop
  | [], s => s = []
  | .run :: ps, s => ∃ rest, rest <:+ s ∧ Matches ps rest
  | .one :: ps, s => ∃ c rest, s = c :: rest ∧ Matches ps rest
  | .exactly c :: ps, s => ∃ rest, s = c :: rest ∧ Matches ps rest

/-- A text can be matched by trying every suffix where a run stands. -/
instance decidableMatches : ∀ (ps : List Part) (s : List Char), Decidable (Matches ps s)
  | [], s => inferInstanceAs (Decidable (s = []))
  | .run :: ps, s =>
      have := decidableMatches ps
      decidable_of_iff (∃ rest ∈ s.tails, Matches ps rest) (by simp [Matches])
  | .one :: _, [] => isFalse (by simp [Matches])
  | .one :: ps, _ :: s =>
      have := decidableMatches ps s
      decidable_of_iff (Matches ps s) (by simp [Matches])
  | .exactly _ :: _, [] => isFalse (by simp [Matches])
  | .exactly c :: ps, d :: s =>
      have := decidableMatches ps s
      decidable_of_iff (d = c ∧ Matches ps s) (by simp [Matches])

/-- No character is a wildcard. -/
def IsPlain (v : List Char) : Prop :=
  ∀ c ∈ v, isWildcard c = false

variable {ps qs : List Part} {s u v : List Char} {c d : Char}

/-! ## Matching -/

theorem matches_append : Matches (ps ++ qs) s ↔ ∃ a b, s = a ++ b ∧ Matches ps a ∧ Matches qs b := by
  induction ps generalizing s with
  | nil => simp [Matches]
  | cons p ps ih =>
    cases p with
    | run =>
      simp only [List.cons_append, Matches, ih]
      constructor
      · rintro ⟨_, ⟨skipped, rfl⟩, a, b, rfl, ha, hb⟩
        exact ⟨skipped ++ a, b, (List.append_assoc ..).symm, ⟨a, List.suffix_append .., ha⟩, hb⟩
      · rintro ⟨_, b, rfl, ⟨a, ⟨skipped, rfl⟩, ha⟩, hb⟩
        exact ⟨a ++ b, ⟨skipped, (List.append_assoc ..).symm⟩, a, b, rfl, ha, hb⟩
    | one =>
      simp only [List.cons_append, Matches, ih]
      constructor
      · rintro ⟨c, _, rfl, a, b, rfl, ha, hb⟩
        exact ⟨c :: a, b, rfl, ⟨c, a, rfl, ha⟩, hb⟩
      · rintro ⟨_, b, rfl, ⟨c, a, rfl, ha⟩, hb⟩
        exact ⟨c, a ++ b, rfl, a, b, rfl, ha, hb⟩
    | exactly c =>
      simp only [List.cons_append, Matches, ih]
      constructor
      · rintro ⟨_, rfl, a, b, rfl, ha, hb⟩
        exact ⟨c :: a, b, rfl, ⟨a, rfl, ha⟩, hb⟩
      · rintro ⟨_, b, rfl, ⟨a, rfl, ha⟩, hb⟩
        exact ⟨a ++ b, rfl, a, b, rfl, ha, hb⟩

/-- A run at the end matches whatever follows. -/
theorem matches_append_run : Matches (ps ++ [.run]) s ↔ ∃ p, p <+: s ∧ Matches ps p := by
  rw [matches_append]
  constructor
  · rintro ⟨a, b, rfl, ha, _⟩
    exact ⟨a, List.prefix_append .., ha⟩
  · rintro ⟨a, ⟨b, rfl⟩, ha⟩
    exact ⟨a, b, rfl, ha, [], List.nil_suffix, rfl⟩

theorem matches_append_exactly :
    Matches (ps ++ [.exactly c]) s ↔ ∃ t, s = t ++ [c] ∧ Matches ps t := by
  rw [matches_append]
  simp only [Matches, exists_eq_right]
  constructor
  · rintro ⟨a, b, rfl, ha, rfl⟩
    exact ⟨a, rfl, ha⟩
  · rintro ⟨a, rfl, ha⟩
    exact ⟨a, [c], rfl, ha, rfl⟩

@[simp]
theorem matches_map_exactly : Matches (v.map .exactly) s ↔ s = v := by
  induction v generalizing s with
  | nil => rfl
  | cons c v ih => simp [Matches, ih]

/-! ## Reading -/

theorem parts_cons_of_ne (h : c ≠ '\\') (rest : List Char) :
    parts (c :: rest) = .ofChar c :: parts rest := by
  cases rest with
  | nil => rfl
  | cons d rest => rw [parts, if_neg fun both => h both.1]

/-- A pattern may be cut anywhere but between a backslash and the wildcard that it escapes. -/
theorem parts_append
    (h : u.getLast? ≠ some '\\' ∨ ∀ c, v.head? = some c → isWildcard c = false) :
    parts (u ++ v) = parts u ++ parts v := by
  induction u using parts.induct with
  | case1 => rfl
  | case2 c =>
    cases v with
    | nil => rfl
    | cons d v =>
      have apart : ¬ (c = '\\' ∧ isWildcard d = true) := by
        rintro ⟨rfl, wild⟩
        rcases h with last | plain
        · exact last rfl
        · rw [plain d rfl] at wild
          contradiction
      exact if_neg apart
  | case3 c d rest escaped ih =>
    have rest : rest.getLast? ≠ some '\\' ∨ ∀ c, v.head? = some c → isWildcard c = false := by
      refine h.imp_left fun last => ?_
      cases rest with
      | nil => exact nofun
      | cons e rest => simpa using last
    rw [List.cons_append, List.cons_append, parts, parts, if_pos escaped, if_pos escaped,
      ih rest, List.cons_append]
  | case4 c d rest plain ih =>
    have rest := ih (h.imp_left fun last => by rwa [List.getLast?_cons_cons] at last)
    rw [List.cons_append, List.cons_append, parts, parts, if_neg plain, if_neg plain,
      ← List.cons_append, rest, List.cons_append]

theorem Part.ofChar_of_not_isWildcard (h : isWildcard c = false) : ofChar c = .exactly c := by
  simp only [isWildcard, Bool.or_eq_false_iff, beq_eq_false_iff_ne] at h
  rw [ofChar, if_neg h.1, if_neg h.2]

theorem parts_of_isPlain (h : IsPlain v) : parts v = v.map .exactly := by
  induction v using parts.induct with
  | case1 => rfl
  | case2 c => rw [parts, Part.ofChar_of_not_isWildcard (h c (by simp)), List.map_singleton]
  | case3 c d rest escaped ih =>
    rw [h d (by simp)] at escaped
    exact absurd escaped.2 Bool.false_ne_true
  | case4 c d rest plain ih =>
    rw [parts, if_neg plain, Part.ofChar_of_not_isWildcard (h c (by simp)),
      ih fun e listed => h e (by simp [listed])]
    rfl

/-! ## The shortest match -/

/-- A text that parts match: without characters for a run, and with a letter for any one. -/
def sample : List Part → List Char
  | [] => []
  | .run :: ps => sample ps
  | .one :: ps => 'a' :: sample ps
  | .exactly c :: ps => c :: sample ps

theorem matches_sample (ps : List Part) : Matches ps (sample ps) := by
  induction ps with
  | nil => rfl
  | cons p ps ih =>
    cases p with
    | run => exact ⟨sample ps, List.suffix_rfl, ih⟩
    | one => exact ⟨'a', sample ps, rfl, ih⟩
    | exactly c => exact ⟨sample ps, rfl, ih⟩

theorem length_sample_cons_le (p : Part) (ps : List Part) :
    (sample (p :: ps)).length ≤ (sample ps).length + 1 := by
  cases p <;> simp [sample]

theorem length_sample_parts_le (v : List Char) : (sample (parts v)).length ≤ v.length := by
  induction v using parts.induct with
  | case1 => exact Nat.le_refl 0
  | case2 c => exact length_sample_cons_le (.ofChar c) []
  | case3 c d rest escaped ih =>
    rw [parts, if_pos escaped, sample, List.length_cons, List.length_cons, List.length_cons]
    omega
  | case4 c d rest plain ih =>
    have step := length_sample_cons_le (.ofChar c) (parts (d :: rest))
    rw [parts, if_neg plain, List.length_cons (a := c)]
    omega

/-- A wildcard is not what stands for it in the sample, and nothing shorter is. -/
theorem eq_of_sample_ofChar_eq {cs : List Char} (le : (sample ps).length ≤ cs.length)
    (h : sample (.ofChar c :: ps) = c :: cs) : isWildcard c = false ∧ sample ps = cs := by
  by_cases run : c = '%'
  · subst run
    have length : (sample ps).length = cs.length + 1 := congrArg List.length h
    omega
  · by_cases one : c = '_'
    · subst one
      exact absurd (List.cons.inj h).1 (by decide)
    · rw [Part.ofChar, if_neg run, if_neg one] at h
      exact ⟨by simp [isWildcard, run, one], (List.cons.inj h).2⟩

theorem isPlain_of_sample_parts_eq (h : sample (parts v) = v) : IsPlain v := by
  induction v using parts.induct with
  | case1 => exact nofun
  | case2 c =>
    have le : (sample []).length ≤ ([] : List Char).length := Nat.le_refl 0
    simpa [IsPlain] using (eq_of_sample_ofChar_eq le h).1
  | case3 c d rest escaped ih =>
    -- the backslash is missing from the sample
    have shorter := length_sample_parts_le rest
    have length := congrArg List.length h
    rw [parts, if_pos escaped, sample] at length
    simp only [List.length_cons] at length
    omega
  | case4 c d rest plain ih =>
    rw [parts, if_neg plain] at h
    obtain ⟨first, others⟩ := eq_of_sample_ofChar_eq (length_sample_parts_le _) h
    exact List.forall_mem_cons.2 ⟨first, ih others⟩

/-- A pattern with wildcards has a match that does not hold its characters. -/
theorem exists_matches_of_not_isPlain (h : ¬ IsPlain v) :
    ∃ s, Matches (parts v) s ∧ ¬ v <:+: s := by
  refine ⟨sample (parts v), matches_sample _, ?_⟩
  intro within
  exact h (isPlain_of_sample_parts_eq
    (within.eq_of_length_le (length_sample_parts_le v)).symm)

/-! ## Beginnings and endings -/

/-- With a backslash at the end of the text, the `%` behind it stands for itself. -/
theorem matches_before_run_of_backslash :
    Matches (parts ((u ++ ['\\']) ++ ['%'])) s ↔ ∃ t, s = t ++ ['%'] ∧ Matches (parts u) t := by
  have cut : parts (u ++ ['\\', '%']) = parts u ++ [.exactly '%'] :=
    parts_append (.inr fun c first => by obtain rfl := Option.some.inj first; rfl)
  rw [List.append_assoc, List.singleton_append, cut, matches_append_exactly]

theorem matches_before_run (h : v.getLast? ≠ some '\\') :
    Matches (parts (v ++ ['%'])) s ↔ ∃ p, p <+: s ∧ Matches (parts v) p := by
  rw [parts_append (.inl h)]
  exact matches_append_run

theorem matches_after_run :
    Matches (parts ('%' :: v)) s ↔ ∃ p, p <:+ s ∧ Matches (parts v) p := by
  rw [parts_cons_of_ne (by decide)]
  rfl

/-- A text with a `%` behind it matches what begins with it, just if it has no wildcard and
no backslash at its end. -/
theorem matches_before_run_iff_prefix :
    (∀ s, Matches (parts (v ++ ['%'])) s ↔ v <+: s) ↔
      IsPlain v ∧ v.getLast? ≠ some '\\' := by
  constructor
  · intro begins
    have last : v.getLast? ≠ some '\\' := by
      intro last
      obtain ⟨u, rfl⟩ := List.getLast?_eq_some_iff.1 last
      -- the text itself does not end with the character that is wanted at the end
      obtain ⟨t, same, _⟩ := matches_before_run_of_backslash.1 ((begins _).2 List.prefix_rfl)
      exact absurd (List.append_inj_right' same rfl) (by decide)
    refine ⟨?_, last⟩
    by_contra wild
    obtain ⟨s, fits, outside⟩ := exists_matches_of_not_isPlain wild
    have first := (begins s).1 ((matches_before_run last).2 ⟨s, List.prefix_rfl, fits⟩)
    exact outside first.isInfix
  · rintro ⟨plain, last⟩ s
    rw [matches_before_run last, parts_of_isPlain plain]
    simp [matches_map_exactly]

/-- A text with a `%` before it matches what ends with it, just if it has no wildcard. -/
theorem matches_after_run_iff_suffix :
    (∀ s, Matches (parts ('%' :: v)) s ↔ v <:+ s) ↔ IsPlain v := by
  constructor
  · intro ends
    by_contra wild
    obtain ⟨s, fits, outside⟩ := exists_matches_of_not_isPlain wild
    have last := (ends s).1 (matches_after_run.2 ⟨s, List.suffix_rfl, fits⟩)
    exact outside last.isInfix
  · intro plain s
    rw [matches_after_run, parts_of_isPlain plain]
    simp [matches_map_exactly]

end FilterQuery.Like

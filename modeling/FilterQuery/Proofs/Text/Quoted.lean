import FilterQuery.Proofs.Text.Boundary
import FilterQuery.Text.Quotation

/-!
# Where quoted texts end

A text between double quotes ends at its closing quote, whatever characters it has and
whatever follows, and nothing between the quotes is without a glyph, so that it stays on
one line. Main statements: two texts that begin with a quoted text each and are equal as
wholes have the same text quoted and go on alike, and no character of a quoted text is
unprintable.
-/

namespace FilterQuery

/-! ## Hexadecimal digits -/

theorem hexDigits_of_lt {n : Nat} (h : n < 16) : hexDigits n = [Nat.digitChar n] :=
  Nat.toDigits_of_lt_base h

theorem hexDigits_of_le {n : Nat} (h : 16 ≤ n) :
    hexDigits n = hexDigits (n / 16) ++ [Nat.digitChar (n % 16)] :=
  Nat.toDigits_of_base_le (by decide) h

@[simp]
theorem hexDigit?_digitChar : ∀ d < 16, hexDigit? (Nat.digitChar d) = some d := by
  decide

@[simp]
theorem hexValue?_concat (ds : List Char) (c : Char) :
    hexValue? (ds ++ [c]) = (hexValue? ds).bind fun n => (hexDigit? c).map (16 * n + ·) := by
  simp [hexValue?, List.foldlM_append]

/-- The hexadecimal digits of a number are read as the number. -/
@[simp]
theorem hexValue?_hexDigits (n : Nat) : hexValue? (hexDigits n) = some n := by
  induction n using Nat.strongRecOn with
  | ind n ih =>
    rcases Nat.lt_or_ge n 16 with small | large
    · rw [hexDigits_of_lt small, ← List.nil_append [_], hexValue?_concat,
        hexDigit?_digitChar n small]
      simp [hexValue?]
    · have last : n % 16 < 16 := Nat.mod_lt n (by decide)
      rw [hexDigits_of_le large, hexValue?_concat, ih (n / 16) (by omega),
        hexDigit?_digitChar _ last, Option.bind_some, Option.map_some, Nat.div_add_mod]

theorem exists_digitChar_of_mem_hexDigits {n : Nat} {c : Char} (h : c ∈ hexDigits n) :
    ∃ d < 16, c = Nat.digitChar d := by
  induction n using Nat.strongRecOn with
  | ind n ih =>
    rcases Nat.lt_or_ge n 16 with small | large
    · rw [hexDigits_of_lt small] at h
      exact ⟨n, small, List.mem_singleton.1 h⟩
    · rw [hexDigits_of_le large, List.mem_append, List.mem_singleton] at h
      rcases h with front | last
      · exact ih (n / 16) (by omega) front
      · exact ⟨n % 16, Nat.mod_lt n (by decide), last⟩

namespace Quoted

/-! ## Characters -/

/-- The characters that are written as a backslash and a letter, each with its letter. -/
def letters : List (Char × Char) :=
  [('"', '"'), ('\\', '\\'), ('\n', 'n'), ('\r', 'r'), ('\t', 't'), ('\x00', '0')]

/-- A character between the quotes is a letter behind a backslash, or is given by its
code, or stands for itself. -/
theorem escapeChar_cases (c : Char) :
    (∃ e, (c, e) ∈ letters ∧ escapeChar c = ['\\', e]) ∨ escapeChar c = byCode c ∨
      escapeChar c = [c] ∧ c ≠ '"' ∧ c ≠ '\\' ∧ isUnprintable c = false := by
  unfold escapeChar
  split
  · next mark =>
    refine .inl ⟨c, ?_, rfl⟩
    rcases mark with rfl | rfl <;> decide
  next noMark =>
  split
  · next feed => exact .inl ⟨'n', by rw [feed]; decide, rfl⟩
  split
  · next return_ => exact .inl ⟨'r', by rw [return_]; decide, rfl⟩
  split
  · next tab => exact .inl ⟨'t', by rw [tab]; decide, rfl⟩
  split
  · next null => exact .inl ⟨'0', by rw [null]; decide, rfl⟩
  split
  · exact .inr (.inl rfl)
  · next printable =>
    rw [not_or] at noMark
    exact .inr (.inr ⟨rfl, noMark.1, noMark.2, Bool.eq_false_iff.2 printable⟩)

/-- No two characters have the same letter, and the letter of codes belongs to none. -/
theorem letters_distinct : ∀ p ∈ letters, p.2 ≠ 'u' ∧ ∀ q ∈ letters, p.2 = q.2 → p = q := by
  decide

@[simp]
theorem byCode_append (c : Char) (x : List Char) :
    byCode c ++ x = '\\' :: 'u' :: '\x7b' :: (hexDigits c.toNat ++ '\x7d' :: x) := by
  simp [byCode]

/-- The digits of a code end at the brace behind them. -/
theorem byCode_append_inj {c d : Char} {x y : List Char} (h : byCode c ++ x = byCode d ++ y) :
    c = d ∧ x = y := by
  have digit (n : Nat) : ∀ e ∈ hexDigits n, (!e == '\x7d') = true := by
    intro e he
    obtain ⟨k, small, rfl⟩ := exists_digitChar_of_mem_hexDigits he
    have noBrace : ∀ k < 16, (!Nat.digitChar k == '\x7d') = true := by decide
    exact noBrace k small
  simp only [byCode_append, List.cons.injEq, true_and] at h
  obtain ⟨digits, rest⟩ := run_append_inj (digit _) (digit _) (by simp) (by simp) h
  have code := congrArg hexValue? digits
  rw [hexValue?_hexDigits, hexValue?_hexDigits, Option.some.injEq] at code
  exact ⟨Char.toNat_inj.1 code, (List.cons.inj rest).2⟩

theorem escapeChar_append_inj {c d : Char} {x y : List Char}
    (h : escapeChar c ++ x = escapeChar d ++ y) : c = d ∧ x = y := by
  -- a letter, a code and the character itself, each against these three in this order
  rcases escapeChar_cases c with ⟨e, he, hc⟩ | hc | ⟨hc, -, noEscape, -⟩ <;>
    rcases escapeChar_cases d with ⟨e', he', hd⟩ | hd | ⟨hd, -, noEscape', -⟩ <;>
    rw [hc, hd] at h
  · simp only [List.cons_append, List.nil_append, List.cons.injEq, true_and] at h
    have same := (letters_distinct _ he).2 _ he' h.1
    exact ⟨(Prod.mk.inj same).1, h.2⟩
  · rw [byCode_append] at h
    exact absurd (List.cons.inj (List.cons.inj h).2).1 (letters_distinct _ he).1
  · exact absurd (List.cons.inj h).1.symm noEscape'
  · rw [byCode_append] at h
    exact absurd (List.cons.inj (List.cons.inj h).2).1.symm (letters_distinct _ he').1
  · exact byCode_append_inj h
  · exact absurd (List.cons.inj h).1.symm noEscape'
  · exact absurd (List.cons.inj h).1 noEscape
  · exact absurd (List.cons.inj h).1 noEscape
  · exact List.cons.inj h

/-- What stands for a character never begins with a quote. -/
theorem escapeChar_append_ne_mark (c : Char) (x y : List Char) :
    escapeChar c ++ x ≠ '"' :: y := by
  intro h
  rcases escapeChar_cases c with ⟨e, -, hc⟩ | hc | ⟨hc, noMark, -, -⟩ <;> rw [hc] at h
  · exact absurd (List.cons.inj h).1 (by decide)
  · exact absurd (List.cons.inj h).1 (by decide)
  · exact noMark (List.cons.inj h).1

/-- The blank and the visible characters of ASCII have glyphs. -/
theorem isUnprintable_of_ascii {c : Char} (h : 0x20 ≤ c.toNat ∧ c.toNat < 0x7f) :
    isUnprintable c = false := by
  rw [isUnprintable, if_pos h.2, decide_eq_false_iff_not]
  exact Nat.not_lt.2 h.1

theorem isUnprintable_of_mem_escapeChar {c d : Char} (h : d ∈ escapeChar c) :
    isUnprintable d = false := by
  rcases escapeChar_cases c with ⟨e, he, hc⟩ | hc | ⟨hc, -, -, printable⟩ <;> rw [hc] at h
  · have letter : ∀ p ∈ letters, 0x20 ≤ p.2.toNat ∧ p.2.toNat < 0x7f := by decide
    simp only [List.mem_cons, List.not_mem_nil, or_false] at h
    rcases h with rfl | rfl
    · exact isUnprintable_of_ascii (by decide)
    · exact isUnprintable_of_ascii (letter _ he)
  · simp only [byCode, List.mem_cons, List.mem_append, List.not_mem_nil, or_false] at h
    rcases h with rfl | rfl | rfl | digit | rfl
    · exact isUnprintable_of_ascii (by decide)
    · exact isUnprintable_of_ascii (by decide)
    · exact isUnprintable_of_ascii (by decide)
    · obtain ⟨k, small, rfl⟩ := exists_digitChar_of_mem_hexDigits digit
      have visible : ∀ k < 16,
          0x20 ≤ (Nat.digitChar k).toNat ∧ (Nat.digitChar k).toNat < 0x7f := by decide
      exact isUnprintable_of_ascii (visible k small)
    · exact isUnprintable_of_ascii (by decide)
  · rw [List.mem_singleton.1 h, printable]

/-! ## Texts -/

@[simp]
theorem toList_quote (s : String) :
    (quote s).toList = '"' :: (s.toList.flatMap escapeChar ++ ['"']) :=
  String.toList_ofList

theorem quote_append (s : String) (x : List Char) :
    (quote s).toList ++ x = '"' :: (s.toList.flatMap escapeChar ++ '"' :: x) := by
  simp

/-- A quoted text at the front of a text is determined by it, as is what follows. -/
theorem quote_append_inj {s t : String} {x y : List Char}
    (h : (quote s).toList ++ x = (quote t).toList ++ y) : s = t ∧ x = y := by
  rw [quote_append, quote_append] at h
  obtain ⟨contents, hxy⟩ := runs_append_inj escapeChar_append_ne_mark
    (fun _ _ _ _ => escapeChar_append_inj) (List.cons.inj h).2
  exact ⟨String.toList_injective contents, hxy⟩

/-- Quoted texts with a comma and a blank between them, up to a closing bracket. -/
theorem quotes_append_inj {ss ts : List String} {x y : List Char}
    (h : separated (fun s => (quote s).toList) ss ++ ']' :: x =
      separated (fun t => (quote t).toList) ts ++ ']' :: y) : ss = ts ∧ x = y := by
  -- a quoted text never begins with the bracket that closes an empty list
  cases ss with
  | nil =>
    cases ts with
    | nil => exact ⟨rfl, (List.cons.inj h).2⟩
    | cons t ts =>
      rw [separated, separated, toList_quote] at h
      exact absurd (List.cons.inj h).1 (by decide)
  | cons s ss =>
    cases ts with
    | nil =>
      rw [separated, separated, toList_quote] at h
      exact absurd (List.cons.inj h).1 (by decide)
    | cons t ts =>
      rw [separated, separated, List.append_assoc, List.append_assoc] at h
      obtain ⟨rfl, rest⟩ := quote_append_inj h
      obtain ⟨rfl, hxy⟩ := parts_append_inj (fun _ => True) (fun s => (quote s).toList)
        (fun _ => trivial) [' '] ⟨trivial, by simp⟩ ⟨trivial, by simp⟩
        (fun _ _ _ _ _ _ _ _ e => quote_append_inj e) rest
      exact ⟨rfl, (List.cons.inj hxy).2⟩

/-- Every character of a quoted text has a glyph; in particular none breaks the line. -/
theorem isUnprintable_of_mem_quote {s : String} {c : Char} (h : c ∈ (quote s).toList) :
    isUnprintable c = false := by
  rw [toList_quote, List.mem_cons, List.mem_append, List.mem_singleton, List.mem_flatMap] at h
  rcases h with rfl | ⟨d, -, hd⟩ | rfl
  · exact isUnprintable_of_ascii (by decide)
  · exact isUnprintable_of_mem_escapeChar hd
  · exact isUnprintable_of_ascii (by decide)

theorem feed_notMem_quote (s : String) : '\n' ∉ (quote s).toList :=
  fun h => absurd (isUnprintable_of_mem_quote h) (by decide)

end Quoted

end FilterQuery

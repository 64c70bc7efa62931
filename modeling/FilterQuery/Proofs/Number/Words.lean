import FilterQuery.Number.Whole
import FilterQuery.Proofs.Calendar.Parts

/-!
# Counts in texts

A count stands in a text as decimal digits, after an optional plus, with any blanks around
it. Main statement: without the blanks at its ends a text is read as a word just if it writes
a count, and that count is the word.
-/

namespace FilterQuery

/-- The text writes the count `n`: blanks, an optional plus, decimal digits, blanks. -/
def WritesCount (s : String) (n : Nat) : Prop :=
  ∃ before sign digits after, s.toList = before ++ (sign ++ digits) ++ after ∧
    (∀ c ∈ before ++ after, isBlank c = true) ∧ (sign = [] ∨ sign = ['+']) ∧
    IsDigits digits ∧ digitsValue digits = n

/-! ## Blanks -/

theorem dropBlanks_of_blank {blanks cs : List Char} (blank : ∀ c ∈ blanks, isBlank c = true)
    (ends : ∀ c ∈ cs.head?, isBlank c = false) : dropBlanks (blanks ++ cs) = cs := by
  rw [dropBlanks, List.dropWhile_append_of_pos blank]
  cases cs with
  | nil => rfl
  | cons c cs => exact List.dropWhile_cons_of_neg (by simp [ends c rfl])

/-- Only blanks are passed over. -/
theorem exists_eq_append_dropBlanks (cs : List Char) :
    ∃ blanks, cs = blanks ++ dropBlanks cs ∧ ∀ c ∈ blanks, isBlank c = true :=
  ⟨_, List.takeWhile_append_dropWhile.symm, List.all_eq_true.1 List.all_takeWhile⟩

@[simp]
theorem toList_trimBlanks (s : String) :
    (trimBlanks s).toList = (dropBlanks (dropBlanks s.toList).reverse).reverse :=
  String.toList_ofList

/-- A text is blanks around what is left of it. -/
theorem exists_eq_append_trimBlanks (s : String) :
    ∃ before after, s.toList = before ++ (trimBlanks s).toList ++ after ∧
      ∀ c ∈ before ++ after, isBlank c = true := by
  obtain ⟨before, front, blank⟩ := exists_eq_append_dropBlanks s.toList
  obtain ⟨after, back, blank'⟩ := exists_eq_append_dropBlanks (dropBlanks s.toList).reverse
  refine ⟨before, after.reverse, ?_, ?_⟩
  · have whole := congrArg List.reverse back
    rw [List.reverse_reverse, List.reverse_append] at whole
    rw [toList_trimBlanks, List.append_assoc, ← whole]
    exact front
  · simp only [List.mem_append, List.mem_reverse]
    rintro c (hc | hc)
    · exact blank c hc
    · exact blank' c hc

/-- A word with blanks around it is what is left. -/
theorem toList_trimBlanks_of_blank {s : String} {before word after : List Char}
    (h : s.toList = before ++ word ++ after) (ne : word ≠ [])
    (blank : ∀ c ∈ before ++ after, isBlank c = true) (solid : ∀ c ∈ word, isBlank c = false) :
    (trimBlanks s).toList = word := by
  have front : dropBlanks s.toList = word ++ after := by
    rw [h, List.append_assoc]
    refine dropBlanks_of_blank (fun c hc => blank c (List.mem_append_left _ hc)) fun c hc => ?_
    rw [List.head?_append_of_ne_nil _ ne] at hc
    exact solid c (List.mem_of_mem_head? hc)
  have back : dropBlanks (word ++ after).reverse = word.reverse := by
    rw [List.reverse_append]
    refine dropBlanks_of_blank (fun c hc => ?_) fun c hc => ?_
    · exact blank c (List.mem_append_right _ (List.mem_reverse.1 hc))
    · exact solid c (List.mem_reverse.1 (List.mem_of_mem_head? hc))
  rw [toList_trimBlanks, front, back, List.reverse_reverse]

/-! ## Words -/

/-- A word is read from an optional plus and the digits of its number, and of nothing else. -/
theorem readWord?_eq_some_iff {s : String} {n : UInt64} :
    readWord? s = some n ↔ ∃ sign digits, s.toList = sign ++ digits ∧
      (sign = [] ∨ sign = ['+']) ∧ IsDigits digits ∧ digitsValue digits = n.toNat := by
  have read (ds : List Char) : (if ds ≠ [] ∧ ds.all Char.isDigit ∧ FitsUnsigned (digitsValue ds)
      then some (UInt64.ofNat (digitsValue ds)) else none) = some n ↔
        IsDigits ds ∧ digitsValue ds = n.toNat := by
    have bound := n.toNat_lt
    rw [Option.ite_none_right_eq_some, Option.some.injEq, List.all_eq_true, ← UInt64.toNat_inj,
      UInt64.toNat_ofNat']
    constructor
    · rintro ⟨⟨ne, digit, fits⟩, value⟩
      exact ⟨⟨ne, digit⟩, by omega⟩
    · rintro ⟨⟨ne, digit⟩, value⟩
      exact ⟨⟨ne, digit, by omega⟩, by omega⟩
  unfold readWord?
  simp only
  split
  · next rest signed =>
    rw [signed]
    refine (read rest).trans
      ⟨fun ⟨digits, value⟩ => ⟨['+'], rest, rfl, .inr rfl, digits, value⟩, ?_⟩
    rintro ⟨sign, digits, parts, rfl | rfl, isDigits, value⟩
    · -- a plus is no digit
      rw [List.nil_append] at parts
      subst parts
      exact absurd (isDigits.isDigit '+' (by simp)) (by decide)
    · obtain rfl : rest = digits := (List.cons.inj parts).2
      exact ⟨isDigits, value⟩
  · next unsigned =>
    refine (read s.toList).trans
      ⟨fun ⟨digits, value⟩ => ⟨[], s.toList, rfl, .inl rfl, digits, value⟩, ?_⟩
    rintro ⟨sign, digits, parts, rfl | rfl, isDigits, value⟩
    · rw [parts]
      exact ⟨isDigits, value⟩
    · exact absurd parts (unsigned digits)

/-- Without the blanks at its ends a text is read as the count that it writes. -/
theorem readWord?_trimBlanks_eq_some_iff {s : String} {n : UInt64} :
    readWord? (trimBlanks s) = some n ↔ WritesCount s n.toNat := by
  rw [readWord?_eq_some_iff]
  constructor
  · rintro ⟨sign, digits, parts, plus, isDigits, value⟩
    obtain ⟨before, after, whole, blank⟩ := exists_eq_append_trimBlanks s
    rw [parts] at whole
    exact ⟨before, sign, digits, after, whole, blank, plus, isDigits, value⟩
  · rintro ⟨before, sign, digits, after, whole, blank, plus, isDigits, value⟩
    refine ⟨sign, digits, toList_trimBlanks_of_blank whole ?_ blank ?_, plus, isDigits, value⟩
    · simp [isDigits.ne_nil]
    · intro c hc
      rcases List.mem_append.1 hc with hc | hc
      · rcases plus with rfl | rfl
        · cases hc
        · obtain rfl := List.mem_singleton.1 hc
          decide
      · exact Calendar.not_isBlank_of_isDigit (isDigits.isDigit c hc)

end FilterQuery

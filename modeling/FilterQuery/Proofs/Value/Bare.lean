import FilterQuery.Proofs.Number.Digits
import FilterQuery.Value

/-!
# Bare words

What is written without quotes is a word: null, the two truth values, and the
numbers. Such a word is never empty and is made of ASCII letters, digits, signs
and points, so that no character of it opens a literal or ends a word.
-/

namespace FilterQuery

/-- A character of a literal that stands without quotes. -/
def isBare (c : Char) : Bool :=
  c.isAlphanum || c == '-' || c == '.'

/-- A text of bare characters, with at least one. -/
def IsBareWord (s : String) : Prop :=
  s.toList ≠ [] ∧ ∀ c ∈ s.toList, isBare c = true

instance : DecidablePred IsBareWord := fun s =>
  decidable_of_iff (s.toList ≠ [] ∧ s.toList.all isBare = true) (by simp [IsBareWord])

theorem isBare_of_isDigit {c : Char} (h : c.isDigit = true) : isBare c = true := by
  simp [isBare, Char.isAlphanum, h]

theorem isBare_of_mem_decimalDigits {n : Nat} {c : Char} (h : c ∈ decimalDigits n) :
    isBare c = true :=
  isBare_of_isDigit ((isDigits_decimalDigits n).isDigit c h)

/-- A sign may stand before a bare word. -/
theorem IsBareWord.negative {s : String} (h : IsBareWord s) : IsBareWord ("-" ++ s) := by
  obtain ⟨_, hs⟩ := h
  refine ⟨by simp, ?_⟩
  intro c hc
  simp only [String.toList_append, List.mem_append] at hc
  rcases hc with hc | hc
  · have : c = '-' := by simpa using hc
    subst this
    decide
  · exact hs c hc

/-! ## Numbers -/

theorem isBareWord_int (n : Int) : IsBareWord (toString n) := by
  have natural : ∀ k : Nat, IsBareWord k.repr := by
    intro k
    refine ⟨by simp [Nat.toDigits_ne_nil], ?_⟩
    intro c hc
    rw [Nat.toList_repr] at hc
    exact isBare_of_mem_decimalDigits hc
  rw [Int.toString_eq_repr, Int.repr_eq_if]
  split
  · exact natural _
  · exact (natural _).negative

/-- Positional notation without a suffix is digits, with at most one point. -/
theorem Decimal.isBareWord_positional (d : Decimal) : IsBareWord (d.positional "") := by
  have digits := fun c => isBare_of_mem_decimalDigits (n := d.digits) (c := c)
  have zeros : ∀ k c, c ∈ List.replicate k '0' → isBare c = true := by
    intro k c hc
    rw [(List.mem_replicate.1 hc).2]
    decide
  simp only [Decimal.positional]
  split
  · refine ⟨by simp [(isDigits_decimalDigits d.digits).ne_nil], ?_⟩
    intro c hc
    simp only [String.toList_append, String.toList_ofList, List.mem_append] at hc
    rcases hc with (hc | hc) | hc
    · exact digits c hc
    · exact zeros _ c hc
    · simp at hc
  · split
    · refine ⟨by simp, ?_⟩
      intro c hc
      simp only [String.toList_append, String.toList_ofList, List.mem_append] at hc
      rcases hc with (hc | hc) | hc
      · exact digits c (List.mem_of_mem_take hc)
      · have : c = '.' := by simpa using hc
        subst this
        decide
      · exact digits c (List.mem_of_mem_drop hc)
    · refine ⟨by simp, ?_⟩
      intro c hc
      simp only [String.toList_append, String.toList_ofList, List.mem_append] at hc
      rcases hc with hc | hc | hc
      · have : c = '0' ∨ c = '.' := by simpa using hc
        rcases this with rfl | rfl <;> decide
      · exact zeros _ c hc
      · exact digits c hc

theorem isBareWord_double (d : Double) : IsBareWord (Value.doubleFormat.write d) := by
  have names : IsBareWord "NaN" ∧ IsBareWord "inf" := by decide
  have positional : ∀ r, Value.doubleFormat.isPositional r = true := fun _ => rfl
  have magnitude : IsBareWord (if d.isFinite then (d.shortest .up).positional "" else "inf") := by
    split
    · exact Decimal.isBareWord_positional _
    · exact names.2
  simp only [DoubleFormat.write, positional, if_true]
  split
  · exact names.1
  · split
    · exact magnitude.negative
    · exact magnitude

/-! ## Values -/

/-- The text of a value that is written without quotes is a bare word. -/
theorem Value.isBareWord_plain {v : Value} (h : v.isQuoted = false) : IsBareWord v.plain := by
  cases v with
  | null => simp only [plain]; decide
  | bool b => cases b <;> simp only [plain] <;> decide
  | int n => simpa only [plain] using isBareWord_int n.toInt
  | double d => simpa only [plain] using isBareWord_double d
  | text s => simp [isQuoted] at h
  | date d => simp [isQuoted] at h
  | timestamp t => simp [isQuoted] at h
  | array items => simp [isQuoted] at h

theorem Value.written_of_isQuoted {v : Value} (h : v.isQuoted = true) :
    v.written = Literal.quote v.plain := by
  rw [written, if_pos h]

theorem Value.written_of_not_isQuoted {v : Value} (h : v.isQuoted = false) :
    v.written = v.plain := by
  simp [written, h]

end FilterQuery

/-!
# Texts

Texts compared without regard to the case of their ASCII letters, texts without
the blanks around them, and texts split at a mark. Main statement: the parts of a
text, joined by the mark, are the text.
-/

namespace FilterQuery

/-! ## Letters of either case -/

/-- A text with its ASCII letters in lower case; every other character stays. -/
def lowerCase (s : String) : String :=
  String.ofList (s.toList.map Char.toLower)

/-- Whether two texts differ at most in the case of ASCII letters. -/
def sameLetters (a b : String) : Bool :=
  decide (lowerCase a = lowerCase b)

/-! ## Blank characters -/

/-- The Unicode property White_Space. -/
def isBlank (c : Char) : Bool :=
  let n := c.toNat
  decide ((9 ≤ n ∧ n ≤ 13) ∨ n = 0x20 ∨ n = 0x85 ∨ n = 0xA0 ∨ n = 0x1680 ∨
    (0x2000 ≤ n ∧ n ≤ 0x200A) ∨ n = 0x2028 ∨ n = 0x2029 ∨ n = 0x202F ∨ n = 0x205F ∨
    n = 0x3000)

/-- The text from its first character that is not blank on. -/
def dropBlanks (cs : List Char) : List Char :=
  cs.dropWhile isBlank

/-- The text without the blanks at its two ends. -/
def trimBlanks (s : String) : String :=
  String.ofList (dropBlanks (dropBlanks s.toList).reverse).reverse

/-! ## Parts -/

/-- The parts of a text between the characters `mark`; a text without one is its
only part. -/
def partsAt (mark : Char) (s : String) : List String :=
  (s.toList.splitOn mark).map String.ofList

@[simp]
theorem toList_partsAt (mark : Char) (s : String) :
    (partsAt mark s).map String.toList = s.toList.splitOn mark := by
  simp [partsAt, Function.comp_def]

@[simp]
theorem intercalate_partsAt (mark : Char) (s : String) :
    (String.singleton mark).intercalate (partsAt mark s) = s := by
  apply String.toList_injective
  rw [String.toList_intercalate, toList_partsAt, String.toList_singleton,
    List.intercalate_splitOn]

/-- The parts of two texts with the mark between them. -/
theorem partsAt_append {mark : Char} {sep : String} (h : sep.toList = [mark]) (s t : String) :
    partsAt mark (s ++ sep ++ t) = partsAt mark s ++ partsAt mark t := by
  rw [partsAt, String.toList_append, String.toList_append, h, List.append_assoc,
    List.singleton_append, List.splitOn_append_cons_self, List.map_append, partsAt, partsAt]

theorem partsAt_of_notMem {mark : Char} {s : String} (h : mark ∉ s.toList) :
    partsAt mark s = [s] := by
  rw [partsAt, List.splitOn_eq_singleton h, List.map_singleton, String.ofList_toList]

/-- Lines that each end with a line feed are found again; what follows the last one is
empty. -/
theorem partsAt_join {lines : List String} (h : ∀ line ∈ lines, '\n' ∉ line.toList) :
    partsAt '\n' (String.join (lines.map (· ++ "\n"))) = lines ++ [""] := by
  induction lines with
  | nil => rfl
  | cons line lines ih =>
    obtain ⟨first, others⟩ := List.forall_mem_cons.1 h
    rw [List.map_cons, String.join_cons, partsAt_append rfl, partsAt_of_notMem first, ih others]
    rfl

end FilterQuery

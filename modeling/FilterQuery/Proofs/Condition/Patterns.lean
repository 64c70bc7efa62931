import FilterQuery.Clause.Soql
import FilterQuery.Filter.Normalized
import FilterQuery.Proofs.Text.Like
import FilterQuery.Proofs.Text.Scan

/-!
# Conditions with patterns

A condition that begins or ends with a text is written as a pattern: the text with a `%`
behind it or before it, quoted. Read back from its literal, the pattern takes the wildcards
of the text for its own, and a backslash at the end of the text takes the meaning of the `%`
away. Main statement: what such a condition matches; that it tests for the beginning or the
ending just if the text has no wildcard and, for the beginning, no backslash at its end.
-/

namespace FilterQuery

open Literal (mark quote scan)
open Like (IsPlain Matches parts)

/-- What a condition with a pattern matches: the pattern is the contents of the literal that
follows the keyword. -/
def Condition.Likes (c : Condition) (s : String) : Prop :=
  ∃ literal pattern, c.soql = c.path ++ " LIKE " ++ literal ∧
    scan literal = ⟨.outside, [mark, mark], [pattern]⟩ ∧ Matches (parts pattern.toList) s.toList

variable {v s : String}

/-- The literal holds the pattern that was quoted. -/
theorem Condition.likes_iff {c : Condition} {pattern : String}
    (h : c.soql = c.path ++ " LIKE " ++ quote pattern) :
    c.Likes s ↔ Matches (parts pattern.toList) s.toList := by
  have found := (Literal.reads_quote pattern).scan_eq
  constructor
  · rintro ⟨literal, pattern', text, scanned, fits⟩
    have same : literal = quote pattern := by
      rw [h] at text
      have chars := congrArg String.toList text
      simp only [String.toList_append, List.append_cancel_left_eq] at chars
      exact (String.toList_inj.1 chars).symm
    rw [same, found] at scanned
    cases scanned
    exact fits
  · intro fits
    exact ⟨quote pattern, pattern, h, found, fits⟩

/-- Every list of characters is a text. -/
theorem forall_toList_iff {p : List Char → Prop} : (∀ s : String, p s.toList) ↔ ∀ s, p s := by
  constructor
  · intro h s
    have here := h (String.ofList s)
    rwa [String.toList_ofList] at here
  · intro h s
    exact h s.toList

namespace FieldOp

theorem likes_startsWith_iff (key path : String) :
    ((startsWith v).condition key path).Likes s ↔
      Matches (parts (v.toList ++ ['%'])) s.toList := by
  have text : ((startsWith v).condition key path).soql =
      path ++ " LIKE " ++ quote ("" ++ v ++ "%") := rfl
  rw [Condition.likes_iff text]
  simp

theorem likes_endsWith_iff (key path : String) :
    ((endsWith v).condition key path).Likes s ↔ Matches (parts ('%' :: v.toList)) s.toList := by
  have text : ((endsWith v).condition key path).soql =
      path ++ " LIKE " ++ quote ("%" ++ v ++ "") := rfl
  rw [Condition.likes_iff text]
  simp

/-- What a condition that begins or ends with `v` matches. It is the beginning or the ending
just if `v` has no wildcard, where the beginning must not end with a backslash either. In
general it is what begins or ends with a match of `v` as a pattern; with a backslash at the
end of a beginning it is a match of what stands before the backslash, and a `%`. -/
theorem likes_startsWith_endsWith (key path v : String) :
    ((∀ s, ((startsWith v).condition key path).Likes s ↔ v.toList <+: s.toList) ↔
      IsPlain v.toList ∧ v.toList.getLast? ≠ some '\\') ∧
    ((∀ s, ((endsWith v).condition key path).Likes s ↔ v.toList <:+ s.toList) ↔
      IsPlain v.toList) ∧
    (∀ s, ((startsWith v).condition key path).Likes s ↔
      if v.toList.getLast? = some '\\' then
        ∃ t, s.toList = t ++ ['%'] ∧ Matches (parts v.toList.dropLast) t
      else ∃ p, p <+: s.toList ∧ Matches (parts v.toList) p) ∧
    ∀ s, ((endsWith v).condition key path).Likes s ↔
      ∃ p, p <:+ s.toList ∧ Matches (parts v.toList) p := by
  refine ⟨?_, ?_, ?_, ?_⟩
  · simp only [likes_startsWith_iff]
    rw [forall_toList_iff (p := fun s => Matches (parts (v.toList ++ ['%'])) s ↔ v.toList <+: s)]
    exact Like.matches_before_run_iff_prefix
  · simp only [likes_endsWith_iff]
    rw [forall_toList_iff (p := fun s => Matches (parts ('%' :: v.toList)) s ↔ v.toList <:+ s)]
    exact Like.matches_after_run_iff_suffix
  · intro s
    rw [likes_startsWith_iff]
    split
    · next last =>
      obtain ⟨u, same⟩ := List.getLast?_eq_some_iff.1 last
      rw [same, List.dropLast_concat]
      exact Like.matches_before_run_of_backslash
    · next last => exact Like.matches_before_run last
  · intro s
    rw [likes_endsWith_iff]
    exact Like.matches_after_run

/-- Wildcards in the text match other characters, and a backslash at the end of a beginning
leaves no room behind it. -/
theorem likes_startsWith_not_prefix :
    ((startsWith "50%").condition "name" "Name").Likes "500" ∧
      ¬ "50%".toList <+: "500".toList ∧
    ((endsWith "_Corp").condition "name" "Name").Likes "Big Corp" ∧
      ¬ "_Corp".toList <:+ "Big Corp".toList ∧
    ¬ ((startsWith "C:\\").condition "name" "Name").Likes "C:\\Users" ∧
      "C:\\".toList <+: "C:\\Users".toList := by
  simp only [likes_startsWith_iff, likes_endsWith_iff]
  decide

end FieldOp

end FilterQuery

import Mathlib.Data.List.Induction
import Mathlib.Data.List.Nodup

/-!
# Lists under keys

What is found in a list of pairs under a key, and the keys of a list in the order in which
they first occur, each once.
-/

namespace FilterQuery

section Lookup

variable {α : Type}

@[simp, grind =]
theorem lookup_cons (entry : String × α) (entries : List (String × α)) (key : String) :
    (entry :: entries).lookup key =
      if entry.1 = key then some entry.2 else entries.lookup key := by
  by_cases here : entry.1 = key
  · subst here
    rw [if_pos rfl, List.lookup_cons_self]
  · rw [if_neg here, List.lookup_cons, beq_false_of_ne (Ne.symm here)]

@[grind =]
theorem lookup_eq_none_iff {entries : List (String × α)} {key : String} :
    entries.lookup key = none ↔ key ∉ entries.map Prod.fst := by
  rw [List.lookup_eq_none_iff, List.mem_map, not_exists]
  refine forall_congr' fun entry => ?_
  rw [bne_iff_ne, ne_comm, not_and]

/-- A filter on the keys leaves what is found under those that it keeps. -/
theorem lookup_filter (p : String → Bool) (entries : List (String × α)) (key : String) :
    (entries.filter fun entry => p entry.1).lookup key =
      if p key = true then entries.lookup key else none := by
  induction entries with
  | nil => simp
  | cons entry entries ih =>
    by_cases here : entry.1 = key
    · subst here
      by_cases kept : p entry.1 = true <;> simp [kept, ih]
    · by_cases kept : p entry.1 = true <;> simp [kept, here, ih]

theorem mem_of_lookup_eq_some {entries : List (String × α)} {key : String} {a : α}
    (h : entries.lookup key = some a) : (key, a) ∈ entries := by
  obtain ⟨before, after, rfl, _⟩ := List.lookup_eq_some_iff.1 h
  simp

/-- With distinct keys, the entries are what is found. -/
theorem mem_iff_lookup_eq_some {entries : List (String × α)}
    (distinct : (entries.map Prod.fst).Nodup) {key : String} {a : α} :
    (key, a) ∈ entries ↔ entries.lookup key = some a := by
  refine ⟨fun h => ?_, mem_of_lookup_eq_some⟩
  induction entries with
  | nil => cases h
  | cons entry entries ih =>
    obtain ⟨fresh, distinct⟩ := List.nodup_cons.1 distinct
    rcases List.mem_cons.1 h with rfl | later
    · simp
    · have ne : entry.1 ≠ key := fun same =>
        fresh (same ▸ List.mem_map_of_mem (f := Prod.fst) later)
      simp [ne, ih distinct later]

end Lookup

section FirstOccurrences

variable {α : Type} [DecidableEq α]

/-- An element that is new goes to the end. -/
theorem eraseDups_concat (as : List α) (a : α) :
    (as ++ [a]).eraseDups = if a ∈ as then as.eraseDups else as.eraseDups ++ [a] := by
  rw [List.eraseDups_append]
  by_cases known : a ∈ as
  · simp [List.removeAll, known]
  · simp [List.removeAll, known, List.eraseDups_cons]

theorem nodup_eraseDups (as : List α) : as.eraseDups.Nodup := by
  induction as using List.reverseRecOn with
  | nil => exact List.nodup_nil
  | append_singleton as a ih =>
    rw [eraseDups_concat]
    split
    · exact ih
    · next fresh =>
      rw [← List.concat_eq_append]
      exact ih.concat (mt List.mem_eraseDups.1 fresh)

theorem eraseDups_filter (p : α → Bool) (as : List α) :
    (as.filter p).eraseDups = as.eraseDups.filter p := by
  induction as using List.reverseRecOn with
  | nil => rfl
  | append_singleton as a ih =>
    rw [List.filter_append, eraseDups_concat]
    by_cases kept : p a = true
    · have single : [a].filter p = [a] := by simp [kept]
      rw [single, eraseDups_concat, ih]
      by_cases known : a ∈ as <;> simp [known, kept]
    · have single : [a].filter p = [] := by simp [kept]
      rw [single, List.append_nil, ih]
      by_cases known : a ∈ as <;> simp [known, kept]

end FirstOccurrences

end FilterQuery

import FilterQuery.Json.Basic
import FilterQuery.Proofs.Keyed

/-!
# Members of objects

An object is read by `get?` and written by `insert`. Main statement: two lists of
members with distinct keys that give the same values are the same up to order.
-/

namespace FilterQuery.Members

variable {ms ns : Members} {k k' : String} {v w : Json}

/-- The keys, in order. -/
def keys (ms : Members) : List String := ms.map Prod.fst

@[simp, grind =]
theorem keys_nil : keys [] = [] := rfl

@[simp, grind =]
theorem keys_cons {member : String × Json} : keys (member :: ms) = member.1 :: ms.keys := rfl

@[simp, grind =]
theorem get?_nil : get? k [] = none := rfl

@[simp, grind =]
theorem get?_cons (member : String × Json) (ms : Members) (k : String) :
    get? k (member :: ms) = if member.1 = k then some member.2 else get? k ms := rfl

@[simp, grind =]
theorem insert_nil : insert k v [] = [(k, v)] := rfl

@[simp, grind =]
theorem insert_cons (member : String × Json) (ms : Members) : insert k v (member :: ms) =
    if member.1 = k then (member.1, v) :: ms else member :: ms.insert k v := rfl

/-- An object is read as any list under keys. -/
theorem get?_eq_lookup (ms : Members) (k : String) : ms.get? k = ms.lookup k := by
  induction ms with
  | nil => rfl
  | cons member ms ih => rw [get?_cons, lookup_cons, ih]

@[grind =]
theorem get?_eq_none_iff : ms.get? k = none ↔ k ∉ ms.keys := by
  rw [get?_eq_lookup]
  exact lookup_eq_none_iff

@[grind →]
theorem mem_keys_of_get?_eq_some (h : ms.get? k = some v) : k ∈ ms.keys := by
  rw [get?_eq_lookup] at h
  exact List.mem_map_of_mem (f := Prod.fst) (mem_of_lookup_eq_some h)

/-- With distinct keys, the members are what `get?` finds. -/
theorem mem_iff_get?_eq_some (distinct : ms.keys.Nodup) :
    (k, v) ∈ ms ↔ ms.get? k = some v := by
  rw [get?_eq_lookup]
  exact mem_iff_lookup_eq_some distinct

@[simp, grind =]
theorem get?_insert : (ms.insert k v).get? k' = if k = k' then some v else ms.get? k' := by
  induction ms with
  | nil => simp
  | cons member ms ih => grind

/-- Writing the value that is there changes nothing. -/
theorem insert_of_get?_eq_some (h : ms.get? k = some v) : ms.insert k v = ms := by
  induction ms with
  | nil => simp at h
  | cons member ms ih => grind

/-- A key that is there keeps its place, and a new key goes to the end. -/
@[grind =]
theorem keys_insert : (ms.insert k v).keys = if k ∈ ms.keys then ms.keys else ms.keys ++ [k] := by
  induction ms with
  | nil => simp
  | cons member ms ih => grind

theorem nodup_keys_insert (distinct : ms.keys.Nodup) : (ms.insert k v).keys.Nodup := by
  grind

/-- Two lists of members with distinct keys that give the same values have the same
members. -/
theorem perm_of_get?_eq (hms : ms.keys.Nodup) (hns : ns.keys.Nodup)
    (same : ∀ k, ms.get? k = ns.get? k) : ms.Perm ns := by
  refine (List.perm_ext_iff_of_nodup (.of_map _ hms) (.of_map _ hns)).2 ?_
  rintro ⟨k, v⟩
  rw [mem_iff_get?_eq_some hms, mem_iff_get?_eq_some hns, same]

theorem get?_filter (keep : String → Bool) :
    get? k (ms.filter fun member => keep member.1) = if keep k then ms.get? k else none := by
  rw [get?_eq_lookup, get?_eq_lookup]
  exact lookup_filter keep ms k

end FilterQuery.Members

import FilterQuery.Proofs.Json.Members
import FilterQuery.Query.Row

/-!
# Records of rows

What the record of a row holds. Main statement: a key has the value that its path
leads to, if it is asked for; the other keys and the order of asking do not matter.
-/

namespace FilterQuery.Model

variable (m : Model) (row : Json)

/-- The value that the path of a key leads to. -/
def valueIn? (key : String) : Option Json :=
  (m.pathFor? key).bind row.atPath

/-- Puts the value of one key into a record. -/
def mapKey (record : Record) (key : String) : Record :=
  match m.valueIn? row key with
  | some v => record.insert key v
  | none => record

theorem mapRow_eq_foldl (keys : List String) :
    m.mapRow keys row = keys.foldl (m.mapKey row) [] := rfl

variable {m row} {record : Record} {key : String}

theorem mapKey_of_eq_some {v : Json} (h : m.valueIn? row key = some v) :
    m.mapKey row record key = record.insert key v := by
  rw [mapKey, h]

theorem mapKey_of_eq_none (h : m.valueIn? row key = none) : m.mapKey row record key = record := by
  rw [mapKey, h]

/-- One key changes no other value, and keeps a value of its own that the row gives. -/
@[simp, grind =]
theorem get?_mapKey (k : String) :
    (m.mapKey row record key).get? k =
      if key = k then (m.valueIn? row k).or (record.get? k) else record.get? k := by
  cases value : m.valueIn? row key with
  | none =>
    rw [mapKey_of_eq_none value]
    grind
  | some v =>
    rw [mapKey_of_eq_some value]
    grind

theorem nodup_keys_mapKey (distinct : record.keys.Nodup) :
    (m.mapKey row record key).keys.Nodup := by
  rw [mapKey]
  split
  · exact Members.nodup_keys_insert distinct
  · exact distinct

/-- A record that is built further takes the values of the row over its own. -/
theorem get?_foldl_mapKey (keys : List String) (record : Record) (k : String) :
    (keys.foldl (m.mapKey row) record).get? k =
      if k ∈ keys then (m.valueIn? row k).or (record.get? k) else record.get? k := by
  induction keys generalizing record with
  | nil => simp
  | cons key keys ih =>
    rw [List.foldl_cons, ih, get?_mapKey]
    by_cases here : key = k
    · subst here
      cases m.valueIn? row key <;> simp
    · simp [here, Ne.symm here]

theorem nodup_keys_foldl_mapKey (keys : List String) (distinct : record.keys.Nodup) :
    (keys.foldl (m.mapKey row) record).keys.Nodup := by
  induction keys generalizing record with
  | nil => exact distinct
  | cons key keys ih => exact ih (nodup_keys_mapKey distinct)

/-- A key that is asked for has its value in the row, the others have none. -/
theorem get?_mapRow (m : Model) (row : Json) (keys : List String) (k : String) :
    (m.mapRow keys row).get? k = if k ∈ keys then m.valueIn? row k else none := by
  rw [mapRow_eq_foldl, get?_foldl_mapKey]
  simp [Members.get?]

/-- No key of a record occurs twice. -/
theorem nodup_keys_mapRow (m : Model) (row : Json) (keys : List String) :
    (m.mapRow keys row).keys.Nodup :=
  nodup_keys_foldl_mapKey keys List.nodup_nil

end FilterQuery.Model

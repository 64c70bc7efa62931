import FilterQuery.Proofs.Keyed
import FilterQuery.Proofs.Select.Projected

/-!
# Flags set one after the other

Setting the flag of a key writes the first entry of that key and no other. The flags that
the entries give a key, in order, say all about it: one setting replaces the first of them,
and over a run the last setting decides which. Main statement: the last flag set for a key
wins, unless it is `false` and the selection began with the key given more than once.
-/

namespace FilterQuery.Selection

/-- The flags that entries give a key, in order. -/
def flags (key : String) (entries : List (String × Bool)) : List Bool :=
  (entries.filter fun e => e.1 = key).map Prod.snd

/-- A selection after flags have been set one after the other. -/
def setAll (s : Selection) (sets : List (String × Bool)) : Selection :=
  sets.foldl (fun s e => s.set e.1 e.2) s

/-- The flag that was set last for a key. -/
def lastFlag? (sets : List (String × Bool)) (key : String) : Option Bool :=
  sets.reverse.lookup key

variable {s : Selection} {sets : List (String × Bool)} {key k : String} {b : Bool}

@[simp]
theorem setAll_concat (s : Selection) (sets : List (String × Bool)) (e : String × Bool) :
    s.setAll (sets ++ [e]) = (s.setAll sets).set e.1 e.2 := by
  rw [setAll, List.foldl_append]
  rfl

@[simp, grind =]
theorem lastFlag?_concat (sets : List (String × Bool)) (e : String × Bool) (key : String) :
    lastFlag? (sets ++ [e]) key = if e.1 = key then some e.2 else lastFlag? sets key := by
  rw [lastFlag?, List.reverse_append, List.reverse_singleton, List.singleton_append, lookup_cons,
    lastFlag?]

theorem lastFlag?_eq_none_iff : lastFlag? sets key = none ↔ key ∉ sets.map Prod.fst := by
  rw [lastFlag?, lookup_eq_none_iff, List.map_reverse, List.mem_reverse]

/-! ## One setting -/

/-- The entries of other keys stay as they are, and in their order. -/
theorem filter_setFlag {p : String → Bool} (other : p k = false) (b : Bool)
    (entries : List (String × Bool)) :
    (setFlag k b entries).filter (fun e => p e.1) = entries.filter fun e => p e.1 := by
  induction entries with
  | nil => simp [other]
  | cons e entries ih =>
    by_cases here : e.1 = k
    · subst here
      simp [other]
    · simp [here, List.filter_cons, ih]

/-- Of the flags of its key, a setting replaces the first. -/
@[simp]
theorem flags_setFlag_self (k : String) (b : Bool) (entries : List (String × Bool)) :
    flags k (setFlag k b entries) = b :: (flags k entries).tail := by
  induction entries with
  | nil => simp [flags]
  | cons e entries ih =>
    by_cases here : e.1 = k
    · simp [flags, here]
    · simpa [flags, here] using ih

@[simp, grind =]
theorem flags_set (s : Selection) (k : String) (b : Bool) (key : String) :
    flags key (s.set k b).entries =
      if k = key then b :: (flags key s.entries).tail else flags key s.entries := by
  by_cases here : k = key
  · subst here
    rw [if_pos rfl]
    exact flags_setFlag_self k b s.entries
  · rw [if_neg here]
    exact congrArg (List.map Prod.snd)
      (filter_setFlag (p := fun other => other = key) (decide_eq_false here) b s.entries)

/-! ## A run -/

/-- Over a run, the last setting of a key stands in the place of its first flag. -/
theorem flags_setAll (s : Selection) (sets : List (String × Bool)) (key : String) :
    flags key (s.setAll sets).entries =
      match lastFlag? sets key with
      | none => flags key s.entries
      | some b => b :: (flags key s.entries).tail := by
  induction sets using List.reverseRecOn with
  | nil => rfl
  | append_singleton sets e ih =>
    rw [setAll_concat, flags_set, lastFlag?_concat, ih]
    by_cases here : e.1 = key
    · rw [if_pos here, if_pos here]
      cases lastFlag? sets key <;> rfl
    · rw [if_neg here, if_neg here]

/-- The entries of keys that are never set stay as they are. -/
theorem filter_setAll (s : Selection) (sets : List (String × Bool)) {p : String → Bool}
    (others : ∀ e ∈ sets, p e.1 = false) :
    (s.setAll sets).entries.filter (fun e => p e.1) = s.entries.filter fun e => p e.1 := by
  induction sets using List.reverseRecOn with
  | nil => rfl
  | append_singleton sets e ih =>
    rw [setAll_concat]
    calc ((s.setAll sets).set e.1 e.2).entries.filter (fun e => p e.1)
      _ = (s.setAll sets).entries.filter fun e => p e.1 :=
        filter_setFlag (others e (by simp)) e.2 _
      _ = s.entries.filter fun e => p e.1 := ih fun e' listed => others e' (by simp [listed])

@[simp]
theorem flags_ofKeys (keys : List String) (key : String) :
    flags key (ofKeys keys).entries = List.replicate (keys.count key) true := by
  induction keys with
  | nil => rfl
  | cons k keys ih =>
    by_cases here : k = key
    · subst here
      simpa [flags, ofKeys, List.replicate_succ] using ih
    · simpa [flags, ofKeys, here] using ih

/-! ## What a selection includes -/

theorem includes_iff_mem_flags : s.includes key = true ↔ true ∈ flags key s.entries := by
  simp [includes, flags]

theorem mem_includedKeys_iff : key ∈ s.includedKeys ↔ s.includes key = true := by
  simp [includedKeys, includes]

/-- A key is asked for just if the selection includes it, whether the model declares it or
not. -/
theorem mem_projectedKeys_iff (q : Select) (s : Selection) (key : String) :
    key ∈ ({ q with selection := some s } : Select).projectedKeys ↔ s.includes key = true := by
  simp only [Select.projectedKeys, List.mem_append, List.mem_filter, mem_includedKeys_iff,
    Model.mem_keys_iff]
  cases q.model.declares key <;> simp

/-- A key is included by its last flag, or if the list that was begun with still has it
behind its first entry. -/
theorem includes_setAll_iff (keys : List String) (sets : List (String × Bool)) (key : String) :
    ((ofKeys keys).setAll sets).includes key = true ↔
      match lastFlag? sets key with
      | none => key ∈ keys
      | some b => b = true ∨ 2 ≤ keys.count key := by
  rw [includes_iff_mem_flags, flags_setAll, flags_ofKeys]
  cases lastFlag? sets key with
  | none => simp [List.mem_replicate, List.count_eq_zero]
  | some b =>
    simp only [List.tail_replicate, List.mem_cons, List.mem_replicate]
    have more : keys.count key - 1 ≠ 0 ↔ 2 ≤ keys.count key := by omega
    simp [more, eq_comm]

/-- Flags set one after the other on the selection of some keys. A key has its last flag, or
without one is included just if it is among the keys; only a key that was given more than
once stays included when its last flag is `false`. The entries of keys that are never set
stay as they are. The included keys are those that the selection includes, and of any
descriptor with the selection these are asked for. -/
theorem includes_eq_lastFlag_iff (keys : List String) (sets : List (String × Bool))
    (key : String) (q : Select) :
    let s := (ofKeys keys).setAll sets
    (s.includes key = (lastFlag? sets key).getD (decide (key ∈ keys)) ↔
      ¬ (lastFlag? sets key = some false ∧ 2 ≤ keys.count key)) ∧
    s.entries.filter (fun e => lastFlag? sets e.1 = none) =
      (ofKeys keys).entries.filter (fun e => lastFlag? sets e.1 = none) ∧
    (key ∈ s.includedKeys ↔ s.includes key = true) ∧
    (key ∈ ({ q with selection := some s } : Select).projectedKeys ↔ s.includes key = true) := by
  intro s
  refine ⟨?_, ?_, mem_includedKeys_iff, mem_projectedKeys_iff q s key⟩
  · have included := includes_setAll_iff keys sets key
    rw [Bool.eq_iff_iff, included]
    cases lastFlag? sets key with
    | none => simp
    | some b => cases b <;> simp
  · refine filter_setAll (ofKeys keys) sets (p := fun k => lastFlag? sets k = none) ?_
    intro e listed
    rw [decide_eq_false_iff_not, lastFlag?_eq_none_iff]
    intro never
    exact never (List.mem_map_of_mem listed)

/-- A key that is given twice stays included, and asked for, after its flag has been set to
`false`. -/
theorem includes_of_lastFlag?_eq_false :
    let s := (ofKeys ["name", "id", "name"]).setAll [("name", false)]
    lastFlag? [("name", false)] "name" = some false ∧ s.includes "name" = true ∧
      s.includedKeys = ["id", "name"] ∧
      ({ model := .deals, selection := some s } : Select).projectedKeys = ["id", "name"] := by
  decide

end FilterQuery.Selection

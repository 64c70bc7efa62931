import FilterQuery.Proofs.Keyed
import FilterQuery.Schema.Basic

/-!
# Schemas built step by step

A schema is built by declaring fields and by projecting to some keys. A declaration stands
until a projection drops its key. Main statement: whatever the steps were, the schema has the
keys of the standing declarations, each once and in the order of its first one, and says of
each what the last one said.
-/

namespace FilterQuery.Schema

/-- A step in building a schema. -/
inductive Step
  | declare (key : String) (s : FieldSchema)
  | project (keys : List String)

/-- A projection drops the keys that it does not name. -/
def Step.keeps (key : String) : Step → Bool
  | declare _ _ => true
  | project keys => key ∈ keys

/-- The schema after one more step. -/
def step (schema : Schema) : Step → Schema
  | .declare key s => schema.declare key s
  | .project keys => schema.project keys

/-- The schema that some steps build. -/
def ofSteps (steps : List Step) : Schema :=
  steps.foldl step empty

/-- The declarations that no later step drops, in order. -/
def standing : List Step → List (String × FieldSchema)
  | [] => []
  | .declare key s :: later =>
      if later.all (Step.keeps key) then (key, s) :: standing later else standing later
  | .project _ :: later => standing later

/-- The declared keys, in order. -/
def keys (schema : Schema) : List String := schema.fields.map Prod.fst

variable {schema : Schema} {key k : String} {s : FieldSchema} {steps : List Step}

/-! ## One step -/

@[simp, grind =]
theorem lookup_setEntry (k : String) (s : FieldSchema) (entries : List (String × FieldSchema))
    (key : String) :
    (setEntry k s entries).lookup key = if k = key then some s else entries.lookup key := by
  induction entries with
  | nil => simp
  | cons entry entries ih =>
    by_cases there : entry.1 = k
    · subst there
      by_cases here : entry.1 = key <;> simp [here]
    · by_cases here : entry.1 = key
      · subst here
        simp [there, Ne.symm there]
      · simp [there, here, ih]

@[simp, grind =]
theorem get?_declare (schema : Schema) (k : String) (s : FieldSchema) (key : String) :
    (schema.declare k s).get? key = if k = key then some s else schema.get? key :=
  lookup_setEntry k s schema.fields key

theorem get?_project (schema : Schema) (keys : List String) (key : String) :
    (schema.project keys).get? key = if key ∈ keys then schema.get? key else none := by
  have kept := lookup_filter (fun k => k ∈ keys) schema.fields key
  simp only [decide_eq_true_eq] at kept
  exact kept

/-- A new key goes to the end. -/
theorem setEntry_of_notMem {entries : List (String × FieldSchema)}
    (h : k ∉ entries.map Prod.fst) : setEntry k s entries = entries ++ [(k, s)] := by
  induction entries with
  | nil => rfl
  | cons entry entries ih =>
    obtain ⟨ne, absent⟩ := List.ne_and_not_mem_of_not_mem_cons h
    simp [ne.symm, ih absent]

/-- A key that is there keeps its place, and a new key goes to the end. -/
theorem map_fst_setEntry (entries : List (String × FieldSchema)) :
    (setEntry k s entries).map Prod.fst =
      if k ∈ entries.map Prod.fst then entries.map Prod.fst else entries.map Prod.fst ++ [k] := by
  induction entries with
  | nil => simp
  | cons entry entries ih => grind

@[grind =]
theorem keys_declare (schema : Schema) (k : String) (s : FieldSchema) :
    (schema.declare k s).keys = if k ∈ schema.keys then schema.keys else schema.keys ++ [k] :=
  map_fst_setEntry schema.fields

theorem keys_project (schema : Schema) (keys : List String) :
    (schema.project keys).keys = schema.keys.filter fun k => k ∈ keys := by
  rw [Schema.keys, Schema.keys, project, List.filter_map]
  rfl

/-! ## The declarations that stand -/

@[simp]
theorem standing_concat_declare (steps : List Step) (k : String) (s : FieldSchema) :
    standing (steps ++ [.declare k s]) = standing steps ++ [(k, s)] := by
  induction steps with
  | nil => rfl
  | cons first steps ih =>
    cases first with
    | declare k' s' => grind [standing, Step.keeps]
    | project keys => exact ih

/-- A projection takes away the declarations of the keys that it does not name. -/
theorem standing_concat_project (steps : List Step) (keys : List String) :
    standing (steps ++ [.project keys]) = (standing steps).filter fun e => e.1 ∈ keys := by
  induction steps with
  | nil => rfl
  | cons first steps ih =>
    cases first with
    | declare k' s' => grind [standing, Step.keeps]
    | project keys' => exact ih

/-! ## A run -/

@[simp]
theorem ofSteps_concat (steps : List Step) (last : Step) :
    ofSteps (steps ++ [last]) = (ofSteps steps).step last := by
  rw [ofSteps, List.foldl_append]
  rfl

/-- The keys are those of the standing declarations, in the order of the first ones. -/
theorem keys_ofSteps (steps : List Step) :
    (ofSteps steps).keys = ((standing steps).map Prod.fst).eraseDups := by
  induction steps using List.reverseRecOn with
  | nil => rfl
  | append_singleton steps last ih =>
    rw [ofSteps_concat]
    cases last with
    | declare k s =>
      rw [step, keys_declare, ih, standing_concat_declare, List.map_append, List.map_singleton,
        eraseDups_concat]
      exact if_congr List.mem_eraseDups rfl rfl
    | project keys =>
      rw [step, keys_project, ih, standing_concat_project, ← eraseDups_filter, List.filter_map]
      rfl

theorem nodup_keys_ofSteps (steps : List Step) : (ofSteps steps).keys.Nodup := by
  rw [keys_ofSteps]
  exact nodup_eraseDups _

/-- Of each key the schema says what was declared last. -/
theorem get?_ofSteps (steps : List Step) (key : String) :
    (ofSteps steps).get? key = (standing steps).reverse.lookup key := by
  induction steps using List.reverseRecOn with
  | nil => rfl
  | append_singleton steps last ih =>
    rw [ofSteps_concat]
    cases last with
    | declare k s =>
      rw [step, get?_declare, ih, standing_concat_declare, List.reverse_append,
        List.reverse_singleton, List.singleton_append, lookup_cons]
    | project keys =>
      have kept := lookup_filter (fun k => k ∈ keys) (standing steps).reverse key
      rw [step, get?_project, ih, standing_concat_project, ← List.filter_reverse, kept]
      simp

end FilterQuery.Schema

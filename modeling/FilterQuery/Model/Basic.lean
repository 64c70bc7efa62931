import FilterQuery.Model.Provider
import FilterQuery.Schema.Basic

/-!
# Models

A model maps logical keys to the paths under which one object of a provider keeps
its fields. No key is declared twice: `Draft.build` refuses a draft that does,
and a `Model` carries the proof.
-/

namespace FilterQuery

/-- A logical key and the path that the provider keeps it under. Dots in a path
lead through related objects. -/
structure Field where
  key : String
  path : String
deriving DecidableEq, Repr

/-- A link to another model. -/
structure Relation where
  key : String
  /-- The name of the other model. -/
  model : String
  localKey : String
  foreignKey : String
deriving DecidableEq, Repr

/-- A model before its keys have been checked. -/
structure Draft where
  name : String
  object : String
  provider : Provider
  schema : Schema := {}
  fields : List Field := []
  relations : List Relation := []

/-- A model, each of whose keys is declared once. -/
structure Model extends Draft where
  distinct : (fields.map Field.key).Nodup

/-- A key that a model declares twice. -/
structure RepeatedKey where
  model : String
  key : String
deriving DecidableEq, Repr

def RepeatedKey.message (e : RepeatedKey) : String :=
  "model '" ++ e.model ++ "' declares field '" ++ e.key ++ "' more than once"

/-- The first key that occurs before, or is among `seen`. -/
def firstRepeat? (seen : List String) : List String → Option String
  | [] => none
  | k :: ks => if k ∈ seen then some k else firstRepeat? (k :: seen) ks

theorem nodup_of_firstRepeat?_eq_none {seen ks : List String}
    (h : firstRepeat? seen ks = none) : ks.Nodup ∧ ∀ k ∈ ks, k ∉ seen := by
  induction ks generalizing seen with
  | nil => simp
  | cons k ks ih =>
    rw [firstRepeat?] at h
    split at h
    · simp at h
    · obtain ⟨hn, hd⟩ := ih h
      refine ⟨List.nodup_cons.2 ⟨fun hk => hd k hk (List.mem_cons_self ..), hn⟩, ?_⟩
      intro x hx
      rcases List.mem_cons.1 hx with rfl | hx
      · assumption
      · exact fun hs => hd x hx (List.mem_cons_of_mem _ hs)

/-- The model of a draft, unless a key is declared twice. -/
def Draft.build (d : Draft) : Except RepeatedKey Model :=
  match h : firstRepeat? [] (d.fields.map Field.key) with
  | none => .ok { d with distinct := (nodup_of_firstRepeat?_eq_none h).1 }
  | some key => .error ⟨d.name, key⟩

namespace Model

/-- The field with the given key. -/
def field? (m : Model) (key : String) : Option Field :=
  m.fields.find? fun f => f.key = key

/-- The path of a key. -/
def pathFor? (m : Model) (key : String) : Option String :=
  (m.field? key).map Field.path

/-- The path of a key; a key that is not declared is its own path. -/
def pathFor (m : Model) (key : String) : String :=
  (m.pathFor? key).getD key

/-- The keys, in the order of their declaration. -/
def keys (m : Model) : List String :=
  m.fields.map Field.key

/-- Whether a key is declared. -/
def declares (m : Model) (key : String) : Bool :=
  (m.field? key).isSome

def relation? (m : Model) (key : String) : Option Relation :=
  m.relations.find? fun r => r.key = key

end Model

end FilterQuery

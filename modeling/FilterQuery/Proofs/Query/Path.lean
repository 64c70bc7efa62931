import FilterQuery.Proofs.Json.Members
import FilterQuery.Query.Row

/-!
# Paths through rows

A path is followed one segment after the other, so that the value at a longer path is
found from the value at its beginning. Rows may come with the marker of a relationship
dropped from some of the names on the way. Main statement: looking up is compositional,
an exact name goes before one without the marker, nothing is found behind a value that is
no object, and a value that is found under exact names is found whatever markers are
dropped.
-/

namespace FilterQuery

@[simp]
theorem segments_append (p q : String) : segments (p ++ "." ++ q) = segments p ++ segments q :=
  partsAt_append rfl p q

/-- A name has the marker at its end just if it is another name with the marker put behind. -/
theorem withoutMarker?_eq_some_iff {name short : String} :
    withoutMarker? name = some short ↔ name = short ++ "__r" := by
  rw [← String.toList_inj, String.toList_append, ← List.reverse_inj, List.reverse_append]
  have marker : "__r".toList.reverse = ['r', '_', '_'] := rfl
  rw [marker, withoutMarker?]
  split
  · next rest backwards =>
    rw [backwards, Option.some.injEq, ← String.toList_inj, String.toList_ofList]
    simp [List.reverse_eq_iff]
  · next other =>
    simp only [reduceCtorEq, false_iff]
    exact fun same => other short.toList.reverse same

/-! ## Names without the marker -/

namespace Members

variable {ms ms' : Members} {name short : String} {v w : Json}

/-- An exact name goes before the name without the marker. -/
theorem resolve_of_get?_eq_some (h : ms.get? name = some v) : ms.resolve name = some v := by
  rw [resolve, h]

/-- Where only the name without the marker is there, it is taken. -/
theorem resolve_append_marker (absent : ms.get? (short ++ "__r") = none) :
    ms.resolve (short ++ "__r") = ms.get? short := by
  rw [resolve, absent, withoutMarker?_eq_some_iff.2 rfl]
  rfl

/-- The object `ms'` is `ms` but for the member `old`, which is named `new` and has the value
`v`. The order of the members is left open. -/
def Renamed (ms ms' : Members) (old new : String) (v : Json) : Prop :=
  ∀ k, ms'.get? k = if k = new then some v else if k = old then none else ms.get? k

/-- Renames the member `old` in its place and gives it the value `v`. -/
def rename (ms : Members) (old new : String) (v : Json) : Members :=
  ms.map fun member => if member.1 = old then (new, v) else member

@[simp]
theorem rename_nil {old new : String} : rename [] old new v = [] := rfl

@[simp]
theorem rename_cons {old new : String} {member : String × Json} :
    rename (member :: ms) old new v =
      (if member.1 = old then (new, v) else member) :: ms.rename old new v := rfl

theorem get?_rename_of_ne {old new k : String} (other : k ≠ new) :
    (ms.rename old new v).get? k = if k = old then none else ms.get? k := by
  induction ms with
  | nil => simp
  | cons member ms ih =>
    by_cases here : member.1 = old
    · -- the first member answers to neither name
      have ne : new ≠ k := other.symm
      by_cases sought : old = k
      · subst sought
        simp [here, ne, ih]
      · simp [here, ne, ih, sought, Ne.symm sought]
    · by_cases found : member.1 = k
      · subst found
        simp [here]
      · simp [here, found, ih]

theorem get?_rename_self {old new : String} (there : ms.get? old = some w)
    (free : new = old ∨ ms.get? new = none) : (ms.rename old new v).get? new = some v := by
  induction ms with
  | nil => simp at there
  | cons member ms ih =>
    by_cases here : member.1 = old
    · simp [here]
    · rw [get?_cons, if_neg here] at there
      rcases free with rfl | absent
      · simp [here, ih there (.inl rfl)]
      · have ne : member.1 ≠ new := fun same => by simp [same] at absent
        rw [get?_cons, if_neg ne] at absent
        simp [here, ne, ih there (.inr absent)]

theorem renamed_rename {old new : String} (there : ms.get? old = some w)
    (free : new = old ∨ ms.get? new = none) : ms.Renamed (ms.rename old new v) old new v := by
  intro k
  by_cases found : k = new
  · subst found
    rw [if_pos rfl, get?_rename_self there free]
  · rw [if_neg found, get?_rename_of_ne found]

/-- A member that stays as it is. -/
theorem renamed_self (there : ms.get? name = some v) : ms.Renamed ms name name v := by
  intro k
  by_cases found : k = name
  · simp [found, there]
  · simp [found]

theorem Renamed.get?_new {old new : String} (h : ms.Renamed ms' old new v) :
    ms'.get? new = some v := by
  rw [h, if_pos rfl]

theorem Renamed.get?_old {old new : String} (h : ms.Renamed ms' old new v) (ne : old ≠ new) :
    ms'.get? old = none := by
  rw [h, if_neg ne, if_pos rfl]

end Members

namespace Json

variable {row row' v : Json} {ms : Members}

@[simp]
theorem follow_append (a b : List String) (v : Json) :
    follow (a ++ b) v = (follow a v).bind (follow b) := by
  induction a generalizing v with
  | nil => rfl
  | cons s a ih =>
    cases v with
    | object ms =>
      rw [List.cons_append, follow, follow, Option.bind_assoc]
      exact congrArg _ (funext ih)
    | null | bool | number | string | array => rfl

/-- Behind a value that is no object there is nothing. -/
theorem follow_cons_eq_none (h : ∀ ms, v ≠ .object ms) (s : String) (rest : List String) :
    follow (s :: rest) v = none := by
  cases v with
  | object ms => exact absurd rfl (h ms)
  | null | bool | number | string | array => rfl

/-- Follows segments through nested objects by their exact names. -/
@[simp] def followExactly : List String → Json → Option Json
  | [], v => some v
  | s :: rest, .object ms => (Members.get? s ms).bind (followExactly rest)
  | _ :: _, _ => none

/-- The row that `row` becomes when the marker is dropped from some of the names that are met
along the segments: at each of them the name stays, or it loses one marker at its end,
provided that the object has no member of the shorter name already. -/
inductive Unmarked : List String → Json → Json → Prop
  | done (v : Json) : Unmarked [] v v
  | keep {name : String} {rest : List String} {ms ms' : Members} {v v' : Json}
      (there : ms.get? name = some v) (inner : Unmarked rest v v')
      (same : ms.Renamed ms' name name v') : Unmarked (name :: rest) (.object ms) (.object ms')
  | drop {short : String} {rest : List String} {ms ms' : Members} {v v' : Json}
      (there : ms.get? (short ++ "__r") = some v) (free : ms.get? short = none)
      (inner : Unmarked rest v v') (renamed : ms.Renamed ms' (short ++ "__r") short v') :
      Unmarked ((short ++ "__r") :: rest) (.object ms) (.object ms')

/-- A longer name is another name. -/
theorem append_marker_ne (short : String) : short ++ "__r" ≠ short := by
  intro same
  have length := congrArg String.length same
  rw [String.length_append] at length
  have marker : "__r".length = 3 := rfl
  omega

/-- What is found under exact names is found without the markers. The induction is on the
names that are met: each is there still, or its shorter form is, and then the exact name is
not. -/
theorem Unmarked.follow_eq {segs : List String} (h : Unmarked segs row row')
    (exact : followExactly segs row = some v) : follow segs row' = some v := by
  induction h with
  | done w => exact exact
  | keep there inner same ih =>
    rw [followExactly, there, Option.bind_some] at exact
    rw [follow, Members.resolve_of_get?_eq_some same.get?_new, Option.bind_some, ih exact]
  | drop there free inner renamed ih =>
    rw [followExactly, there, Option.bind_some] at exact
    have absent := renamed.get?_old (append_marker_ne _)
    rw [follow, Members.resolve_append_marker absent, renamed.get?_new, Option.bind_some, ih exact]

/-- Looking up a path in a row. The value at two paths joined by a dot is what the second
leads to from the value at the first. The value under exact names is found also in a row in
which markers were dropped. At each segment on the way an object gives the value under the
exact name if it has one, and else the value under the name without the marker; anything but
an object gives nothing. -/
theorem atPath_append_unmarked (row : Json) (p q : String) :
    row.atPath (p ++ "." ++ q) = (row.atPath p).bind (fun v => v.atPath q) ∧
    (∀ v row', followExactly (segments p) row = some v → Unmarked (segments p) row row' →
      row'.atPath p = some v) ∧
    ∀ before s after w, segments p = before ++ s :: after → follow before row = some w →
      (∀ ms : Members, w = .object ms →
        (∀ v, ms.get? s = some v → row.atPath p = follow after v) ∧
        (∀ short, ms.get? s = none → s = short ++ "__r" →
          row.atPath p = (ms.get? short).bind (follow after))) ∧
      ((∀ ms, w ≠ .object ms) → row.atPath p = none) := by
  refine ⟨?_, fun v row' exact unmarked => unmarked.follow_eq exact, ?_⟩
  · rw [atPath, segments_append, follow_append]
    rfl
  · intro before s after w split reached
    have here : row.atPath p = follow (s :: after) w := by
      rw [atPath, split, follow_append, reached, Option.bind_some]
    refine ⟨?_, fun closed => by rw [here, follow_cons_eq_none closed]⟩
    rintro ms rfl
    refine ⟨fun v found => ?_, fun short absent marked => ?_⟩
    · rw [here, follow, Members.resolve_of_get?_eq_some found, Option.bind_some]
    · subst marked
      rw [here, follow, Members.resolve_append_marker absent]

/-- An assistant who is given under a name with the marker, beside a member of the name
without it. -/
def assisted : Members :=
  [("Assistant__r", .object [("Name", .string "Ada")]), ("Assistant", .null)]

/-- The marker of the owner is dropped, the one of the assistant must stay. -/
theorem atPath_append_unmarked_assisted :
    let members : Members := [("Id", .string "006"), ("Owner__r", .object assisted)]
    let flat := members.rename "Owner__r" "Owner" (.object assisted)
    let path := "Owner__r.Assistant__r.Name"
    followExactly (segments path) (.object members) = some (.string "Ada") ∧
      Unmarked (segments path) (.object members) (.object flat) ∧
      atPath (.object flat) path = some (.string "Ada") ∧
      atPath (.object members) path = some (.string "Ada") ∧
      atPath (.object members) "Owner__r.Assistant.Name" = none := by
  intro members flat path
  have parts : segments path = ["Owner" ++ "__r", "Assistant__r", "Name"] := by decide
  have exact : followExactly (segments path) (.object members) = some (.string "Ada") := by
    rw [parts]
    rfl
  have name : Unmarked ["Name"] (.object [("Name", .string "Ada")])
      (.object [("Name", .string "Ada")]) :=
    .keep rfl (.done _) (Members.renamed_self rfl)
  have assistant : Unmarked ["Assistant__r", "Name"] (.object assisted) (.object assisted) :=
    .keep rfl name (Members.renamed_self rfl)
  have unmarked : Unmarked (segments path) (.object members) (.object flat) := by
    rw [parts]
    exact .drop rfl rfl assistant (Members.renamed_rename rfl (.inr rfl))
  obtain ⟨_, tolerant, through⟩ := atPath_append_unmarked (.object members) path ""
  obtain ⟨_, _, past⟩ :=
    atPath_append_unmarked (.object members) "Owner__r.Assistant.Name" ""
  obtain ⟨found, _⟩ :=
    (through ["Owner__r"] "Assistant__r" ["Name"] (.object assisted) parts rfl).1 assisted rfl
  exact ⟨exact, unmarked, tolerant _ _ exact unmarked, found _ rfl,
    (past ["Owner__r", "Assistant"] "Name" [] .null (by decide) rfl).2 (by simp)⟩

end Json

end FilterQuery

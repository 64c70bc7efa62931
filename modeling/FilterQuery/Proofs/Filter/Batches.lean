import FilterQuery.Proofs.Filter.Applied

/-!
# Batches

The lists of marked membership tests, cut into batches. A cut is described piece by piece,
without the code that makes it. Main statement: the batches of a directive are its list in
order, all but the last of the size that was asked for, and the whole test admits a value just
if the tests of the batches do, one of them or, if it is negated, all.
-/

namespace FilterQuery

/-! ## Cuts -/

/-- A list cut into full pieces and a last one, which has an element and is not longer. An
empty list has no pieces. -/
inductive IsCut {α : Type} (size : Nat) : List α → List (List α) → Prop
  | empty : IsCut size [] []
  | last {piece} (some : piece ≠ []) (fits : piece.length ≤ size) : IsCut size piece [piece]
  | full {piece rest pieces} (length : piece.length = size) (more : rest ≠ [])
      (cut : IsCut size rest pieces) : IsCut size (piece ++ rest) (piece :: pieces)

namespace IsCut

variable {α : Type} {size : Nat} {as : List α} {pieces : List (List α)}

theorem flatten_eq (h : IsCut size as pieces) : pieces.flatten = as := by
  induction h with
  | empty => rfl
  | last some fits => exact List.flatten_singleton
  | full length more cut ih => rw [List.flatten_cons, ih]

theorem ne_nil (h : IsCut size as pieces) (some : as ≠ []) : pieces ≠ [] := by
  rintro rfl
  exact some h.flatten_eq.symm

/-- Every piece but the last is full. -/
theorem length_of_mem_dropLast (h : IsCut size as pieces) :
    ∀ piece ∈ pieces.dropLast, piece.length = size := by
  induction h with
  | empty => nofun
  | last some fits => nofun
  | full length more cut ih =>
    rw [List.dropLast_cons_of_ne_nil (cut.ne_nil more), List.forall_mem_cons]
    exact ⟨length, ih⟩

theorem getLast_bounds (h : IsCut size as pieces) :
    ∀ piece ∈ pieces.getLast?, piece ≠ [] ∧ piece.length ≤ size := by
  induction h with
  | empty => nofun
  | last some fits =>
    rintro _ ⟨⟩
    exact ⟨some, fits⟩
  | full length more cut ih =>
    obtain ⟨first, pieces, rfl⟩ := List.exists_cons_of_ne_nil (cut.ne_nil more)
    rw [List.getLast?_cons_cons]
    exact ih

theorem ne_nil_of_mem (h : IsCut size as pieces) (positive : 0 < size) :
    ∀ piece ∈ pieces, piece ≠ [] := by
  induction h with
  | empty => nofun
  | last some fits => simpa using some
  | full length more cut ih =>
    refine List.forall_mem_cons.2 ⟨?_, ih⟩
    rintro rfl
    exact absurd positive (by simp [← length])

/-- There are as many pieces as the size goes into the length, rounded up. -/
theorem length_eq (h : IsCut size as pieces) (positive : 0 < size) :
    pieces.length = (as.length + size - 1) / size := by
  induction h with
  | empty => exact (Nat.div_eq_of_lt (by simp; omega)).symm
  | last some fits =>
    have := List.length_pos_iff.2 some
    rw [List.length_singleton]
    exact (Nat.div_eq_of_lt_le (by omega) (by omega)).symm
  | @full piece rest pieces length more cut ih =>
    have := List.length_pos_iff.2 more
    have sum : (piece ++ rest).length + size - 1 = rest.length + size - 1 + size := by
      rw [List.length_append]
      omega
    rw [List.length_cons, ih, sum, Nat.add_div_right _ positive]

end IsCut

/-! ## Batches of a directive -/

/-- There is no directive for an empty list. -/
theorem Application.values_ne_nil {a : Application} {d : Directive} (h : a.directive? = some d) :
    d.values ≠ [] := by
  obtain ⟨key, path, op⟩ := a
  have member : ∀ {negated : Bool} {members : Membership},
      members.directive? path negated = some d → d.values ≠ [] := by
    intro negated members hd
    unfold Membership.directive? at hd
    split at hd
    · cases hd
      exact List.cons_ne_nil _ _
    · cases hd
  cases op with
  | isIn members | notIn members => exact member h
  | _ => cases h

namespace Directive

@[simp]
theorem pieces_nil {α : Type} (size fuel : Nat) : pieces size fuel ([] : List α) = [] := by
  cases fuel <;> rfl

/-- With enough fuel, the pieces of a list are a cut of it. -/
theorem isCut_pieces {α : Type} {size : Nat} (positive : 0 < size) {fuel : Nat} {as : List α}
    (enough : as.length ≤ fuel) : IsCut size as (pieces size fuel as) := by
  induction fuel generalizing as with
  | zero =>
    obtain rfl := List.length_eq_zero_iff.1 (Nat.le_zero.1 enough)
    exact .empty
  | succ fuel ih =>
    cases as with
    | nil => exact .empty
    | cons a as =>
      have step : pieces size (fuel + 1) (a :: as) =
          (a :: as).take size :: pieces size fuel ((a :: as).drop size) := rfl
      rw [step]
      rcases Nat.lt_or_ge size (a :: as).length with long | short
      · have cut : IsCut size ((a :: as).take size ++ (a :: as).drop size) _ :=
          .full (List.length_take_of_le (Nat.le_of_lt long)) (List.drop_eq_nil_iff.not.2 (by omega))
            (ih (by rw [List.length_drop]; omega))
        rwa [List.take_append_drop] at cut
      · rw [List.take_of_length_le short, List.drop_of_length_le short, pieces_nil]
        exact .last (List.cons_ne_nil _ _) short

variable {d : Directive} {m : Model} {policy : Policy} {f : Filter} {n : Normalized}

/-- With a positive size the batches are a cut of the list. -/
theorem isCut_batches {size : UInt64} (asked : d.chunking.size = some size)
    (positive : 0 < size.toNat) : IsCut size.toNat d.values d.batches := by
  rw [batches, asked]
  simp only
  rw [if_neg (Nat.ne_of_gt positive)]
  exact isCut_pieces positive (Nat.le_refl _)

/-- Without a size, or with zero, the list is one batch. -/
theorem batches_eq_singleton (unbounded : ∀ size, d.chunking.size = some size → size.toNat = 0) :
    d.batches = [d.values] := by
  rw [batches]
  cases asked : d.chunking.size with
  | none => rfl
  | some size => exact if_pos (unbounded size asked)

/-- There is a positive size, or the list is one batch. -/
theorem batches_cases (d : Directive) :
    (∃ size, d.chunking.size = some size ∧ 0 < size.toNat) ∨ d.batches = [d.values] := by
  by_cases unbounded : ∀ size, d.chunking.size = some size → size.toNat = 0
  · exact .inr (batches_eq_singleton unbounded)
  · simp only [not_forall] at unbounded
    obtain ⟨size, asked, positive⟩ := unbounded
    exact .inl ⟨size, asked, Nat.pos_of_ne_zero positive⟩

@[simp]
theorem flatten_batches (d : Directive) : d.batches.flatten = d.values := by
  rcases d.batches_cases with ⟨size, asked, positive⟩ | single
  · exact (isCut_batches asked positive).flatten_eq
  · rw [single, List.flatten_singleton]

/-- Normalization gives no directive for an empty list. -/
theorem values_ne_nil (h : f.normalize m policy = .ok n) (emitted : d ∈ n.directives) :
    d.values ≠ [] := by
  rw [(Filter.conditions_and_directives_of_normalize h).2] at emitted
  obtain ⟨a, -, ha⟩ := List.mem_filterMap.1 emitted
  exact a.values_ne_nil ha

theorem ne_nil_of_mem_batches (some : d.values ≠ []) : ∀ batch ∈ d.batches, batch ≠ [] := by
  rcases d.batches_cases with ⟨size, asked, positive⟩ | single
  · exact (isCut_batches asked positive).ne_nil_of_mem positive
  · simpa [single] using some

/-! ## What the tests admit -/

/-- The test of a directive admits a value: some value of the list is the same, or, if the test
is negated, none is. -/
def Admits (same : Value → Value → Bool) (x : Value) (d : Directive) : Prop :=
  if d.negated then ∀ v ∈ d.values, same x v = false else ∃ v ∈ d.values, same x v = true

/-- The test of a directive over one batch. -/
def onBatch (d : Directive) (batch : List Value) : Directive :=
  { d with values := batch }

variable {same : Value → Value → Bool} {x : Value}

theorem mem_values_iff {v : Value} : v ∈ d.values ↔ ∃ batch ∈ d.batches, v ∈ batch := by
  rw [← d.flatten_batches, List.mem_flatten]

theorem admits_iff_exists (plain : d.negated = false) :
    d.Admits same x ↔ ∃ batch ∈ d.batches, (d.onBatch batch).Admits same x := by
  simp only [Admits, onBatch, plain, Bool.false_eq_true, if_false, mem_values_iff]
  constructor
  · rintro ⟨v, ⟨batch, listed, hv⟩, equal⟩
    exact ⟨batch, listed, v, hv, equal⟩
  · rintro ⟨batch, listed, v, hv, equal⟩
    exact ⟨v, ⟨batch, listed, hv⟩, equal⟩

theorem admits_iff_forall (negated : d.negated = true) :
    d.Admits same x ↔ ∀ batch ∈ d.batches, (d.onBatch batch).Admits same x := by
  simp only [Admits, onBatch, negated, if_true, mem_values_iff]
  constructor
  · intro other batch listed v hv
    exact other v ⟨batch, listed, hv⟩
  · rintro other v ⟨batch, listed, hv⟩
    exact other batch listed v hv

/-- The batches of a directive, joined, are its list. With a positive size every batch but the
last has that size, the last has a value and is not longer, and so there are as many as the size
goes into the length, rounded up; without a size, or with zero, there is one. The directives
that normalization gives have no empty batch. By any test of sameness a value is admitted just
if it is so over some batch or, if the test is negated, over all of them. -/
theorem batches_admit_alike (d : Directive) :
    d.batches.flatten = d.values ∧
    (∀ size, d.chunking.size = some size → 0 < size.toNat →
      (∀ batch ∈ d.batches.dropLast, batch.length = size.toNat) ∧
      (∀ batch ∈ d.batches.getLast?, batch ≠ [] ∧ batch.length ≤ size.toNat) ∧
      d.batches.length = (d.values.length + size.toNat - 1) / size.toNat) ∧
    ((∀ size, d.chunking.size = some size → size.toNat = 0) → d.batches.length = 1) ∧
    (∀ m policy f n, Filter.normalize m policy f = .ok n → d ∈ n.directives →
      ∀ batch ∈ d.batches, batch ≠ []) ∧
    ∀ same x,
      (d.negated = false →
        (d.Admits same x ↔ ∃ batch ∈ d.batches, (d.onBatch batch).Admits same x)) ∧
      (d.negated = true →
        (d.Admits same x ↔ ∀ batch ∈ d.batches, (d.onBatch batch).Admits same x)) := by
  refine ⟨d.flatten_batches, fun size asked positive => ?_, fun unbounded => ?_, ?_, ?_⟩
  · have cut := isCut_batches asked positive
    exact ⟨cut.length_of_mem_dropLast, cut.getLast_bounds, cut.length_eq positive⟩
  · rw [batches_eq_singleton unbounded, List.length_singleton]
  · intro m policy f n normalized emitted
    exact ne_nil_of_mem_batches (values_ne_nil normalized emitted)
  · exact fun same x => ⟨admits_iff_exists, admits_iff_forall⟩

/-- A filter that excludes five ids, two at a time. -/
def fiveIds : Filter :=
  [.not [.field "name" .null], .field "id" (.ops [.notIn
    { values := [.text "1", .text "2", .text "3", .text "4", .text "5"],
      chunking := some { size := some 2, parallel := some 4 } }])]

theorem batches_admit_alike_fiveIds :
    ∃ n d, fiveIds.normalize .deals .reject = .ok n ∧ n.directives = [d] ∧
      d.chunking.size = some 2 ∧ d.negated = true ∧ d.batches.length = (5 + 2 - 1) / 2 ∧
      (∀ batch ∈ d.batches, batch ≠ []) ∧
      ∀ same x, d.Admits same x ↔ ∀ batch ∈ d.batches, (d.onBatch batch).Admits same x := by
  obtain ⟨-, sized, -, filled, admitted⟩ := batches_admit_alike ⟨"Id", true,
    [.text "1", .text "2", .text "3", .text "4", .text "5"], { size := some 2, parallel := some 4 }⟩
  exact ⟨_, _, rfl, rfl, rfl, rfl, (sized 2 rfl (by decide)).2.2,
    filled .deals .reject fiveIds _ rfl (List.mem_cons_self ..), fun same x =>
      (admitted same x).2 rfl⟩

end Directive

end FilterQuery

import FilterQuery.Codec.Clause
import FilterQuery.Proofs.Clause.Shape
import FilterQuery.Proofs.Codec.Forms

/-!
# Encoded values, conditions, clauses and chunkings

Of the parts of a condition tree only doubles may be lost when they are encoded: JSON has
nothing for a double that is not finite. Main statement: a condition tree decodes to
itself just if every double in it is finite. An encoded chunking always decodes to itself.
-/

namespace FilterQuery

open Codec

/-! ## Values -/

namespace Value

/-- Induction over a value: an array may use the statement of all its elements. -/
@[induction_eliminator]
theorem induction {P : Value → Prop} (null : P .null) (bool : ∀ b, P (.bool b))
    (int : ∀ n, P (.int n)) (double : ∀ d, P (.double d)) (text : ∀ s, P (.text s))
    (date : ∀ d, P (.date d)) (timestamp : ∀ t, P (.timestamp t))
    (array : ∀ items, (∀ v ∈ items, P v) → P (.array items)) (v : Value) : P v :=
  @Value.rec P (fun items => ∀ v ∈ items, P v) null bool int double text date timestamp array
    (by simp) (fun v vs hv hvs => by simpa using ⟨hv, hvs⟩) v

mutual

/-- The doubles in a value, from left to right. -/
@[simp] def doubles : Value → List Double
  | .double d => [d]
  | .array items => doublesAll items
  | .null | .bool _ | .int _ | .text _ | .date _ | .timestamp _ => []

/-- The doubles in values that stand side by side. -/
def doublesAll : List Value → List Double
  | [] => []
  | v :: vs => doubles v ++ doublesAll vs

end

/-- Every double in a value is finite. -/
def IsFinite (v : Value) : Prop :=
  ∀ d ∈ v.doubles, d.isFinite = true

instance (v : Value) : Decidable v.IsFinite :=
  inferInstanceAs (Decidable (∀ d ∈ v.doubles, d.isFinite = true))

@[simp]
theorem doublesAll_eq_flatMap (vs : List Value) : doublesAll vs = vs.flatMap doubles := by
  induction vs with
  | nil => rfl
  | cons v vs ih => rw [doublesAll, ih, List.flatMap_cons]

theorem isFinite_of_doubles_eq_nil {v : Value} (h : v.doubles = []) : v.IsFinite := by
  rw [IsFinite, h]
  nofun

@[simp]
theorem isFinite_double_iff {d : Double} : (double d).IsFinite ↔ d.isFinite = true :=
  List.forall_mem_singleton

@[simp]
theorem isFinite_array_iff {items : List Value} :
    (array items).IsFinite ↔ ∀ v ∈ items, v.IsFinite := by
  simp only [IsFinite, doubles, doublesAll_eq_flatMap, List.mem_flatMap]
  exact ⟨fun h v hv d hd => h d ⟨v, hv, hd⟩, fun h d ⟨v, hv, hd⟩ => h v hv d hd⟩

theorem decodeAll_encodeAll_iff {vs : List Value} :
    decodeAll (encodeAll vs) = .ok vs ↔ ∀ v ∈ vs, decode v.encode = .ok v := by
  induction vs with
  | nil => exact iff_of_true rfl nofun
  | cons v vs ih =>
    rw [List.forall_mem_cons, ← ih, encodeAll, decodeAll, bind_eq_ok_iff]
    simp only [bind_eq_ok_iff]
    constructor
    · rintro ⟨_, here, _, others, ⟨⟩⟩
      exact ⟨here, others⟩
    · rintro ⟨here, others⟩
      exact ⟨v, here, vs, others, rfl⟩

/-- A value decodes to itself just if its doubles are finite. -/
theorem decode_encode_iff {v : Value} : decode v.encode = .ok v ↔ v.IsFinite := by
  induction v with
  | null | bool | text => exact iff_of_true rfl (isFinite_of_doubles_eq_nil rfl)
  | int n =>
    have read : decode (int n).encode = (asI64 (.ofInt n.toInt)).map .int := rfl
    rw [read, asI64_ofInt]
    exact iff_of_true rfl (isFinite_of_doubles_eq_nil rfl)
  | double d =>
    have read : decode (double d).encode = (asDouble (.ofDouble d)).map .double := rfl
    rw [read, isFinite_double_iff, ← asDouble_ofDouble_iff, map_eq_ok_iff]
    simp only [double.injEq, exists_eq_right]
  | date d =>
    have read : decode (date d).encode = (asDate (.string d.text)).map .date := rfl
    rw [read, asDate_text]
    exact iff_of_true rfl (isFinite_of_doubles_eq_nil rfl)
  | timestamp t =>
    have read : decode (timestamp t).encode =
        (asTimestamp (.string t.exactText)).map .timestamp := rfl
    rw [read, asTimestamp_exactText]
    exact iff_of_true rfl (isFinite_of_doubles_eq_nil rfl)
  | array items ih =>
    have read : decode (array items).encode = (decodeAll (encodeAll items)).map .array := rfl
    rw [read, isFinite_array_iff, ← forall₂_congr ih, ← decodeAll_encodeAll_iff, map_eq_ok_iff]
    simp only [array.injEq, exists_eq_right]

end Value

/-! ## Operands and conditions -/

@[simp]
theorem Operator.decode_encode (op : Operator) : decode op.encode = .ok op := by
  refine oneOf_string .json ?_
  cases op <;> rfl

namespace Operand

/-- The values of an operand, from left to right. -/
def values : Operand → List Value
  | .none => []
  | .value v => [v]
  | .list vs => vs
  | .range low high => [low, high]

/-- Every double in an operand is finite. -/
def IsFinite (o : Operand) : Prop :=
  ∀ v ∈ o.values, v.IsFinite

instance (o : Operand) : Decidable o.IsFinite :=
  inferInstanceAs (Decidable (∀ v ∈ o.values, v.IsFinite))

@[simp]
theorem decodeRange_pair_iff {low high : Value} :
    decodeRange (.array [low.encode, high.encode]) = .ok (.range low high) ↔
      Value.decode low.encode = .ok low ∧ Value.decode high.encode = .ok high := by
  rw [decodeRange, bind_eq_ok_iff]
  simp only [bind_eq_ok_iff]
  constructor
  · rintro ⟨_, left, _, right, ⟨⟩⟩
    exact ⟨left, right⟩
  · rintro ⟨left, right⟩
    exact ⟨low, left, high, right, rfl⟩

theorem decode_encode_iff {o : Operand} : decode o.encode = .ok o ↔ o.IsFinite := by
  cases o with
  | none => exact iff_of_true rfl nofun
  | value v =>
    have read : decode (value v).encode = (Value.decode v.encode).map .value := rfl
    rw [read, map_eq_ok_iff, IsFinite, values, List.forall_mem_singleton,
      ← Value.decode_encode_iff]
    simp only [value.injEq, exists_eq_right]
  | list vs =>
    have read : decode (list vs).encode = (Value.decodeAll (Value.encodeAll vs)).map .list := rfl
    have each : (list vs).IsFinite ↔ ∀ v ∈ vs, Value.decode v.encode = .ok v :=
      forall₂_congr fun _ _ => Value.decode_encode_iff.symm
    rw [read, each, ← Value.decodeAll_encodeAll_iff, map_eq_ok_iff]
    simp only [list.injEq, exists_eq_right]
  | range low high =>
    have read : decode (range low high).encode =
        decodeRange (.array [low.encode, high.encode]) := rfl
    have both : (range low high).IsFinite ↔ low.IsFinite ∧ high.IsFinite := by
      simp [IsFinite, values]
    rw [read, decodeRange_pair_iff, both, Value.decode_encode_iff, Value.decode_encode_iff]

end Operand

namespace Condition

/-- Every double in a condition is finite. -/
def IsFinite (c : Condition) : Prop :=
  c.operand.IsFinite

instance (c : Condition) : Decidable c.IsFinite :=
  inferInstanceAs (Decidable c.operand.IsFinite)

/-- The texts and the operator of a condition decode to themselves. -/
theorem decode_encode_eq (c : Condition) :
    decode c.encode = (Operand.decode c.operand.encode).map fun o => { c with operand := o } := by
  have members : c.encode = .object ((form.fields.map FieldForm.name).zip
      [.string c.key, .string c.path, c.op.encode, c.operand.encode]) := rfl
  rw [decode, members, form.read_object (by decide)]
  cases read : Operand.decode c.operand.encode <;> simp [form, read]

theorem decode_encode_iff {c : Condition} : decode c.encode = .ok c ↔ c.IsFinite := by
  rw [decode_encode_eq, map_eq_ok_iff, IsFinite, ← Operand.decode_encode_iff]
  constructor
  · rintro ⟨o, read, same⟩
    rw [read, ← same]
  · intro read
    exact ⟨c.operand, read, rfl⟩

end Condition

/-! ## Clauses -/

namespace Clause

/-- Every double in a clause is finite. -/
def IsFinite (c : Clause) : Prop :=
  ∀ t ∈ c.conditions, t.IsFinite

instance (c : Clause) : Decidable c.IsFinite :=
  inferInstanceAs (Decidable (∀ t ∈ c.conditions, t.IsFinite))

theorem isFinite_of_conditionsAll_iff {nodes : List Clause} :
    (∀ t ∈ conditionsAll nodes, t.IsFinite) ↔ ∀ c ∈ nodes, c.IsFinite := by
  simp only [IsFinite, conditionsAll_eq_flatMap, List.mem_flatMap]
  exact ⟨fun h c hc t ht => h t ⟨c, hc, ht⟩, fun h t ⟨c, hc, ht⟩ => h c hc t ht⟩

theorem decodeAll_encodeAll_iff {cs : List Clause} :
    decodeAll (encodeAll cs) = .ok cs ↔ ∀ c ∈ cs, decode c.encode = .ok c := by
  induction cs with
  | nil => exact iff_of_true rfl nofun
  | cons c cs ih =>
    rw [List.forall_mem_cons, ← ih, encodeAll, decodeAll, bind_eq_ok_iff]
    simp only [bind_eq_ok_iff]
    constructor
    · rintro ⟨_, here, _, others, ⟨⟩⟩
      exact ⟨here, others⟩
    · rintro ⟨here, others⟩
      exact ⟨c, here, cs, others, rfl⟩

theorem decode_encode_iff {c : Clause} : decode c.encode = .ok c ↔ c.IsFinite := by
  induction c with
  | all nodes ih =>
    have read : decode (all nodes).encode = (decodeAll (encodeAll nodes)).map .all := rfl
    rw [read, IsFinite, conditions, isFinite_of_conditionsAll_iff, ← forall₂_congr ih,
      ← decodeAll_encodeAll_iff, map_eq_ok_iff]
    simp only [all.injEq, exists_eq_right]
  | any nodes ih =>
    have read : decode (any nodes).encode = (decodeAll (encodeAll nodes)).map .any := rfl
    rw [read, IsFinite, conditions, isFinite_of_conditionsAll_iff, ← forall₂_congr ih,
      ← decodeAll_encodeAll_iff, map_eq_ok_iff]
    simp only [any.injEq, exists_eq_right]
  | not node ih =>
    have read : decode (not node).encode = (decode node.encode).map .not := rfl
    rw [read, IsFinite, conditions, ← IsFinite, ← ih, map_eq_ok_iff]
    simp only [not.injEq, exists_eq_right]
  | raw fragment => exact iff_of_true rfl nofun
  | test t =>
    have read : decode (test t).encode = (Condition.decode t.encode).map .test := rfl
    rw [read, IsFinite, conditions, List.forall_mem_singleton, ← Condition.decode_encode_iff,
      map_eq_ok_iff]
    simp only [test.injEq, exists_eq_right]

end Clause

/-! ## Chunkings -/

namespace Chunking

@[simp]
theorem asOptional_encodeCount (n : Option UInt64) :
    asOptional asSize (encodeCount n) = .ok n :=
  asOptional_ofOption rfl asSize_ofNat n

theorem decode_encode (c : Chunking) : decode c.encode = .ok c := by
  have members : c.encode = .object ((form.fields.map FieldForm.name).zip
      [encodeCount c.size, encodeCount c.parallel]) := rfl
  rw [decode, members, form.read_object (by decide)]
  simp [form]

end Chunking

end FilterQuery

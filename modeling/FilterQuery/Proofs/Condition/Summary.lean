import FilterQuery.Clause.Outline
import FilterQuery.Proofs.Clause.Unambiguous
import FilterQuery.Proofs.Text.Quoted

/-!
# What the summary of a condition shows

The summary of a condition shows its key, its path, its operator, and the texts of its
values. It does not show of which kind a value is: the number 1 and the text 1 look alike.
Main statement: where keys and paths are made of the characters of paths, conditions have
the same summary just if they are the same but for the kinds of their values.
-/

namespace FilterQuery

/-! ## Values without their kinds -/

/-- The text of a value, in the place of the value. -/
def Value.untyped (v : Value) : Value :=
  .text v.plain

/-- An operand with the texts of its values. -/
def Operand.untyped : Operand → Operand
  | .none => .none
  | .value v => .value v.untyped
  | .list vs => .list (vs.map Value.untyped)
  | .range low high => .range low.untyped high.untyped

/-- A condition with the texts of its values. -/
def Condition.untyped (c : Condition) : Condition :=
  { c with operand := c.operand.untyped }

theorem Value.map_text_plain (vs : List Value) : (vs.map plain).map text = vs.map untyped := by
  rw [List.map_map]
  rfl

@[simp]
theorem Value.shown_untyped (v : Value) : v.untyped.shown = v.shown := rfl

@[simp]
theorem Operand.summary_untyped (o : Operand) : o.untyped.summary = o.summary := by
  cases o with
  | none | value | range => rfl
  | list vs => simp [untyped, summary, Function.comp_def]

@[simp]
theorem Condition.summary_untyped (c : Condition) : c.untyped.summary = c.summary := by
  rw [summary, untyped, c.operand.summary_untyped, summary]

/-! ## Operands -/

theorem Value.untyped_append_inj {v w : Value} {x y : List Char}
    (h : v.shown.toList ++ x = w.shown.toList ++ y) : v.untyped = w.untyped ∧ x = y := by
  obtain ⟨plain, hxy⟩ := Quoted.quote_append_inj h
  exact ⟨congrArg Value.text plain, hxy⟩

namespace Operand

@[simp]
theorem toList_summary_value (v : Value) : (value v).summary.toList = ' ' :: v.shown.toList := by
  simp [summary]

@[simp]
theorem toList_summary_list (vs : List Value) : (list vs).summary.toList =
    ' ' :: '[' :: (separated (fun s => (Quoted.quote s).toList) (vs.map Value.plain) ++ [']']) := by
  simp only [summary, String.toList_append, toList_separated, separated_map]
  simp [Value.shown]

@[simp]
theorem toList_summary_range (low high : Value) : (range low high).summary.toList =
    ' ' :: (low.shown.toList ++ '.' :: '.' :: '=' :: high.shown.toList) := by
  simp [summary]

/-- A summary that ends behind one value is not that of a range. -/
theorem summary_value_ne_range (v low high : Value) :
    (value v).summary ≠ (range low high).summary := by
  intro h
  have h := congrArg String.toList h
  rw [toList_summary_value, toList_summary_range, ← List.append_nil v.shown.toList] at h
  cases (Value.untyped_append_inj (List.cons.inj h).2).2

/-- The first two characters of a summary. -/
def lead : Operand → List Char
  | .none => []
  | .value _ | .range _ _ => [' ', '"']
  | .list _ => [' ', '[']

theorem take_two_summary (o : Operand) : o.summary.toList.take 2 = o.lead := by
  cases o with
  | none => rfl
  | value v => rw [toList_summary_value, Value.shown, Quoted.toList_quote]; rfl
  | list vs => rw [toList_summary_list]; rfl
  | range low high => rw [toList_summary_range, Value.shown, Quoted.toList_quote]; rfl

/-- The summary of an operand tells which operand it is, but not of which kind the values
are. -/
theorem untyped_eq_of_summary_eq {o p : Operand} (h : o.summary = p.summary) :
    o.untyped = p.untyped := by
  have leads : o.lead = p.lead := by rw [← take_two_summary, h, take_two_summary]
  have chars := congrArg String.toList h
  cases o with
  | none =>
    cases p with
    | none => rfl
    | value | list | range => cases leads
  | value v =>
    cases p with
    | none | list => cases leads
    | range low high => exact absurd h (summary_value_ne_range v low high)
    | value w =>
      rw [toList_summary_value, toList_summary_value] at chars
      have same : v.untyped = w.untyped :=
        (Value.untyped_append_inj (congrArg (· ++ []) (List.cons.inj chars).2)).1
      rw [untyped, untyped, same]
  | list vs =>
    cases p with
    | none | value | range => cases leads
    | list ws =>
      rw [toList_summary_list, toList_summary_list] at chars
      have same := (Quoted.quotes_append_inj (List.cons.inj (List.cons.inj chars).2).2).1
      rw [untyped, untyped, ← Value.map_text_plain, ← Value.map_text_plain, same]
  | range low high =>
    cases p with
    | none | list => cases leads
    | value w => exact absurd h.symm (summary_value_ne_range w low high)
    | range low' high' =>
      rw [toList_summary_range, toList_summary_range] at chars
      obtain ⟨lows, rest⟩ := Value.untyped_append_inj (List.cons.inj chars).2
      simp only [List.cons.injEq, true_and] at rest
      have highs : high.untyped = high'.untyped :=
        (Value.untyped_append_inj (congrArg (· ++ []) rest)).1
      rw [untyped, untyped, lows, highs]

/-- Whatever texts the values have, the summary stays on one line. -/
theorem feed_notMem_summary (o : Operand) : '\n' ∉ o.summary.toList := by
  have shown (v : Value) : '\n' ∉ v.shown.toList := Quoted.feed_notMem_quote v.plain
  cases o with
  | none => exact nofun
  | value v =>
    rw [toList_summary_value]
    simpa using shown v
  | list vs =>
    have texts : '\n' ∉ separated (fun s => (Quoted.quote s).toList) (vs.map Value.plain) :=
      notMem_separated (by decide) fun s _ => Quoted.feed_notMem_quote s
    rw [toList_summary_list]
    simpa using texts
  | range low high =>
    rw [toList_summary_range]
    simpa using ⟨shown low, shown high⟩

end Operand

/-! ## Conditions -/

/-- A text made of the characters of paths. It may be empty. -/
def IsName (s : String) : Prop :=
  ∀ c ∈ s.toList, isPathChar c = true

instance : DecidablePred IsName := fun s =>
  decidable_of_iff (s.toList.all isPathChar = true) (by simp [IsName])

theorem IsName.append_inj {s t : String} (hs : IsName s) (ht : IsName t) {x y : List Char}
    (hx : ∀ c ∈ x.head?, isPathChar c = false) (hy : ∀ c ∈ y.head?, isPathChar c = false)
    (h : s.toList ++ x = t.toList ++ y) : s = t ∧ x = y := by
  obtain ⟨chars, hxy⟩ := run_append_inj hs ht hx hy h
  exact ⟨String.toList_injective chars, hxy⟩

/-- A name is followed by a bracket in a summary. -/
theorem not_isPathChar_bracket (x : List Char) {b : Char} (hb : b = '[' ∨ b = ']') :
    ∀ c ∈ (b :: x).head?, isPathChar c = false := by
  rintro c ⟨⟩
  rcases hb with rfl | rfl <;> decide

namespace Operator

theorem name_injective {op op' : Operator} (h : op.name = op'.name) : op = op' := by
  have named (op : Operator) : ofName? op.name = some op := by
    cases op <;> rfl
  exact Option.some.inj (by rw [← named op, h, named op'])

theorem isAlpha_of_mem_name (op : Operator) : ∀ c ∈ op.name.toList, c.isAlpha = true := by
  have letters : op.name.toList.all Char.isAlpha = true := by
    cases op <;> decide
  exact List.all_eq_true.1 letters

/-- The name of an operator and the summary of an operand, one behind the other. -/
theorem name_append_summary_inj {op op' : Operator} {o o' : Operand}
    (h : op.name.toList ++ o.summary.toList = op'.name.toList ++ o'.summary.toList) :
    op = op' ∧ o.summary = o'.summary := by
  have blank (o : Operand) : ∀ c ∈ o.summary.toList.head?, c.isAlpha = false := by
    intro c hc
    have first : c ∈ o.lead.head? := by
      rw [← o.take_two_summary]
      simpa [List.head?_take] using hc
    cases o <;> cases first <;> decide
  obtain ⟨names, summaries⟩ := run_append_inj op.isAlpha_of_mem_name op'.isAlpha_of_mem_name
    (blank o) (blank o') h
  exact ⟨name_injective (String.toList_injective names), String.toList_injective summaries⟩

end Operator

namespace Condition

/-- Key and path are made of the characters of paths. -/
structure IsNamed (c : Condition) : Prop where
  key : IsName c.key
  path : IsName c.path

instance : DecidablePred IsNamed := fun c =>
  decidable_of_iff (IsName c.key ∧ IsName c.path) ⟨fun h => ⟨h.1, h.2⟩, fun h => ⟨h.key, h.path⟩⟩

theorem toList_summary (c : Condition) : c.summary.toList = c.key.toList ++ '[' ::
    (c.path.toList ++ ']' :: ' ' :: (c.op.name.toList ++ c.operand.summary.toList)) := by
  simp [summary]

theorem untyped_eq_of_summary_eq {c d : Condition} (hc : c.IsNamed) (hd : d.IsNamed)
    (h : c.summary = d.summary) : c.untyped = d.untyped := by
  have h := congrArg String.toList h
  rw [toList_summary, toList_summary] at h
  obtain ⟨keys, h⟩ := hc.key.append_inj hd.key (not_isPathChar_bracket _ (.inl rfl))
    (not_isPathChar_bracket _ (.inl rfl)) h
  obtain ⟨paths, h⟩ := hc.path.append_inj hd.path (not_isPathChar_bracket _ (.inr rfl))
    (not_isPathChar_bracket _ (.inr rfl)) (List.cons.inj h).2
  obtain ⟨ops, summaries⟩ := Operator.name_append_summary_inj (List.cons.inj (List.cons.inj h).2).2
  have operands := Operand.untyped_eq_of_summary_eq summaries
  rw [untyped, untyped, keys, paths, ops, operands]

theorem feed_notMem_summary {c : Condition} (h : c.IsNamed) : '\n' ∉ c.summary.toList := by
  have name {s : String} (hs : IsName s) : '\n' ∉ s.toList := fun hm =>
    absurd (hs _ hm) (by decide)
  have op : '\n' ∉ c.op.name.toList := fun hm =>
    absurd (c.op.isAlpha_of_mem_name _ hm) (by decide)
  rw [toList_summary]
  simpa using ⟨name h.key, name h.path, op, c.operand.feed_notMem_summary⟩

end Condition

end FilterQuery

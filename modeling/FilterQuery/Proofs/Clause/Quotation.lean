import FilterQuery.Proofs.Clause.Shape
import FilterQuery.Proofs.Text.Scan
import FilterQuery.Proofs.Value.Bare

/-!
# Quotation in condition trees

No value breaks out of its literal. A scan of the text of a tree ends outside a
literal, the literals that it finds hold the texts of the quoted values in their
order, and what stands outside the literals does not depend on those texts.
-/

namespace FilterQuery

open Literal

/-! ## The texts that are quoted -/

/-- The text of a value, if it is quoted. -/
def Value.quotedTexts (v : Value) : List String :=
  if v.isQuoted then [v.plain] else []

namespace Operand

/-- The text of one value, as a comparison quotes it. -/
def quotedSingle : Operand → List String
  | .value v => v.quotedTexts
  | _ => []

/-- The text of a pattern. It is quoted whatever kind of value it has. -/
def quotedPattern (before after : String) : Operand → List String
  | .value v => [before ++ v.plain ++ after]
  | _ => []

/-- The texts of two bounds. -/
def quotedBounds : Operand → List String
  | .range low high => low.quotedTexts ++ high.quotedTexts
  | _ => []

/-- The texts of the members of a list. -/
def quotedMembers (o : Operand) : List String :=
  o.members.flatMap Value.quotedTexts

end Operand

/-- The texts that a condition quotes, in their order. -/
def Condition.quotedTexts (c : Condition) : List String :=
  match c.op with
  | .eq | .ne | .gt | .gte | .lt | .lte => c.operand.quotedSingle
  | .like => c.operand.quotedPattern "" ""
  | .startsWith => c.operand.quotedPattern "" "%"
  | .endsWith => c.operand.quotedPattern "%" ""
  | .between => c.operand.quotedBounds
  | .isNull | .isNotNull => []
  | .isIn | .notIn => c.operand.quotedMembers

/-- The texts that a tree quotes, from left to right. -/
def Clause.quotedTexts (c : Clause) : List String :=
  c.conditions.flatMap Condition.quotedTexts

/-! ## Trees without their quoted texts -/

/-- A value without its text, if that is quoted. -/
def Value.masked (v : Value) : Value :=
  if v.isQuoted then .text "" else v

namespace Operand

def maskedSingle : Operand → Operand
  | .value v => .value v.masked
  | o => o

def maskedPattern : Operand → Operand
  | .value _ => .value (.text "")
  | o => o

def maskedBounds : Operand → Operand
  | .range low high => .range low.masked high.masked
  | o => o

def maskedMembers (o : Operand) : Operand :=
  .list (o.members.map Value.masked)

end Operand

/-- A condition without the texts that it quotes. -/
def Condition.masked (c : Condition) : Condition :=
  match c.op with
  | .eq | .ne | .gt | .gte | .lt | .lte => { c with operand := c.operand.maskedSingle }
  | .like | .startsWith | .endsWith => { c with operand := c.operand.maskedPattern }
  | .between => { c with operand := c.operand.maskedBounds }
  | .isNull | .isNotNull => c
  | .isIn | .notIn => { c with operand := c.operand.maskedMembers }

@[simp]
theorem Condition.path_masked (c : Condition) : c.masked.path = c.path := by
  obtain ⟨key, path, op, operand⟩ := c
  cases op <;> rfl

namespace Clause

mutual

/-- A tree without the texts that it quotes. -/
@[simp] def masked : Clause → Clause
  | .all nodes => .all (maskedAll nodes)
  | .any nodes => .any (maskedAll nodes)
  | .not node => .not (masked node)
  | .raw fragment => .raw fragment
  | .test c => .test c.masked

/-- `masked`, node by node. -/
def maskedAll : List Clause → List Clause
  | [] => []
  | c :: cs => masked c :: maskedAll cs

end

@[simp, grind =]
theorem maskedAll_eq_map (cs : List Clause) : maskedAll cs = cs.map masked := by
  induction cs with
  | nil => rfl
  | cons c cs ih => rw [maskedAll, ih, List.map_cons]

end Clause

/-! ## Values and operands -/

theorem mark_notMem_of_isBareWord {s : String} (h : IsBareWord s) : mark ∉ s.toList := by
  intro hm
  have := h.2 mark hm
  revert this
  decide

theorem mark_notMem_append {s t : String} (hs : mark ∉ s.toList) (ht : mark ∉ t.toList) :
    mark ∉ (s ++ t).toList := by
  simp [hs, ht]

theorem Value.readsAlike_written (v : Value) :
    ReadsAlike v.written v.masked.written v.quotedTexts := by
  cases hv : v.isQuoted with
  | true =>
    have masked : v.masked.written = quote "" := by
      rw [Value.masked, if_pos hv]
      rfl
    rw [Value.written_of_isQuoted hv, masked, Value.quotedTexts, if_pos hv]
    exact readsAlike_quote _ _
  | false =>
    have masked : v.masked = v := by simp [Value.masked, hv]
    have texts : v.quotedTexts = [] := by simp [Value.quotedTexts, hv]
    rw [masked, texts, Value.written_of_not_isQuoted hv]
    exact readsAlike_of_mark_notMem (mark_notMem_of_isBareWord (Value.isBareWord_plain hv))

namespace Operand

theorem readsAlike_null : ReadsAlike "null" "null" [] :=
  readsAlike_of_mark_notMem (by decide)

theorem readsAlike_single (o : Operand) :
    ReadsAlike o.single o.maskedSingle.single o.quotedSingle := by
  cases o with
  | value v => exact v.readsAlike_written
  | none => exact readsAlike_null
  | list vs => exact readsAlike_null
  | range low high => exact readsAlike_null

theorem readsAlike_pattern (o : Operand) (before after : String) :
    ReadsAlike (o.pattern before after) (o.maskedPattern.pattern before after)
      (o.quotedPattern before after) := by
  cases o with
  | value v => exact readsAlike_quote _ _
  | none => exact readsAlike_null
  | list vs => exact readsAlike_null
  | range low high => exact readsAlike_null

/-- The two bounds, with any text without marks between them. -/
theorem readsAlike_bounds (o : Operand) {s : String} (hs : mark ∉ s.toList) :
    ReadsAlike (o.bounds.1 ++ s ++ o.bounds.2)
      (o.maskedBounds.bounds.1 ++ s ++ o.maskedBounds.bounds.2) o.quotedBounds := by
  cases o with
  | range low high => exact (low.readsAlike_written.before hs).append high.readsAlike_written
  | none => exact (readsAlike_null.before hs).append readsAlike_null
  | value v => exact (readsAlike_null.before hs).append readsAlike_null
  | list vs => exact (readsAlike_null.before hs).append readsAlike_null

theorem readsAlike_listText (o : Operand) :
    ReadsAlike o.listText o.maskedMembers.listText o.quotedMembers := by
  have members : ReadsAlike (", ".intercalate (o.members.map Value.written))
      (", ".intercalate (o.members.map fun v => v.masked.written)) o.quotedMembers :=
    readsAlike_intercalate ", " (by decide) _ _ _ _ fun v _ => v.readsAlike_written
  have masked : o.maskedMembers.members.map Value.written =
      o.members.map fun v => v.masked.written := by
    simp [maskedMembers, Operand.members]
  rw [listText, listText, masked]
  exact (members.after (by decide)).before (by decide)

end Operand

/-! ## Conditions and trees -/

theorem Condition.readsAlike_soql {c : Condition} (h : mark ∉ c.path.toList) :
    ReadsAlike c.soql c.masked.soql c.quotedTexts := by
  obtain ⟨key, path, op, operand⟩ := c
  have head : ∀ {s : String}, mark ∉ s.toList → mark ∉ (path ++ s).toList :=
    fun hs => mark_notMem_append h hs
  cases op with
  | eq | ne | gt | gte | lt | lte => exact operand.readsAlike_single.after (head (by decide))
  | like | startsWith | endsWith =>
    exact (operand.readsAlike_pattern _ _).after (head (by decide))
  | between =>
    have middle : mark ∉ (" AND " ++ path ++ " <= ").toList :=
      mark_notMem_append (mark_notMem_append (by decide) h) (by decide)
    have left : mark ∉ ("(" ++ path ++ " >= ").toList :=
      mark_notMem_append (mark_notMem_append (by decide) h) (by decide)
    have bounds := ((operand.readsAlike_bounds middle).after left).before (t := ")") (by decide)
    simpa only [Condition.soql, Condition.masked, Condition.quotedTexts, String.append_assoc]
      using bounds
  | isNull | isNotNull => exact readsAlike_of_mark_notMem (head (by decide))
  | isIn | notIn => exact operand.readsAlike_listText.after (head (by decide))

namespace Clause

theorem readsAlike_joined (j : Junction) (nodes : List Clause)
    (h : ∀ c ∈ nodes, ReadsAlike c.soql c.masked.soql c.quotedTexts) :
    ReadsAlike (joined j (soqls nodes)) (joined j (soqls (maskedAll nodes)))
      ((conditionsAll nodes).flatMap Condition.quotedTexts) := by
  have word : mark ∉ (" " ++ j.keyword ++ " ").toList := by
    cases j <;> decide
  have texts : (conditionsAll nodes).flatMap Condition.quotedTexts =
      nodes.flatMap quotedTexts := by
    rw [conditionsAll_eq_flatMap, List.flatMap_assoc]
    rfl
  have parts := readsAlike_intercalate _ word soql (fun c => c.masked.soql) quotedTexts nodes h
  rw [texts, soqls_eq_map, soqls_eq_map, maskedAll_eq_map, List.map_map]
  exact (parts.after (by decide)).before (by decide)

theorem readsAlike_soql (c : Clause) (hr : c.isRawFree = true)
    (hp : ∀ t ∈ c.conditions, mark ∉ t.path.toList) :
    ReadsAlike c.soql c.masked.soql c.quotedTexts := by
  induction c with
  | all nodes ih =>
    exact readsAlike_joined .conjunction nodes fun c hc =>
      ih c hc (areRawFree_iff.1 hr c hc) fun t ht => hp t (mem_conditions_of_mem hc ht)
  | any nodes ih =>
    exact readsAlike_joined .disjunction nodes fun c hc =>
      ih c hc (areRawFree_iff.1 hr c hc) fun t ht => hp t (mem_conditions_of_mem hc ht)
  | not node ih => exact ((ih hr hp).after (by decide)).before (by decide)
  | raw fragment => simp [isRawFree] at hr
  | test c =>
    have texts : (Clause.test c).quotedTexts = c.quotedTexts := by
      simp [quotedTexts, conditions]
    rw [texts]
    exact Condition.readsAlike_soql (hp c (by simp [conditions]))

/-! ## What masking keeps -/

theorem areRawFree_maskedAll {nodes : List Clause}
    (h : ∀ c ∈ nodes, c.masked.isRawFree = c.isRawFree) :
    areRawFree (maskedAll nodes) = areRawFree nodes := by
  rw [Bool.eq_iff_iff, areRawFree_iff, areRawFree_iff, maskedAll_eq_map]
  simp only [List.mem_map, forall_exists_index, and_imp, forall_apply_eq_imp_iff₂]
  exact forall₂_congr fun c hc => by rw [h c hc]

@[simp]
theorem isRawFree_masked (c : Clause) : c.masked.isRawFree = c.isRawFree := by
  induction c with
  | all nodes ih => exact areRawFree_maskedAll ih
  | any nodes ih => exact areRawFree_maskedAll ih
  | not node ih => exact ih
  | raw fragment => rfl
  | test c => rfl

theorem conditionsAll_maskedAll {nodes : List Clause}
    (h : ∀ c ∈ nodes, c.masked.conditions = c.conditions.map Condition.masked) :
    conditionsAll (maskedAll nodes) = (conditionsAll nodes).map Condition.masked := by
  rw [conditionsAll_eq_flatMap, conditionsAll_eq_flatMap, maskedAll_eq_map,
    List.flatMap_map, List.map_flatMap, List.flatMap_def, List.flatMap_def,
    List.map_congr_left h]

@[simp]
theorem conditions_masked (c : Clause) :
    c.masked.conditions = c.conditions.map Condition.masked := by
  induction c with
  | all nodes ih => exact conditionsAll_maskedAll ih
  | any nodes ih => exact conditionsAll_maskedAll ih
  | not node ih => exact ih
  | raw fragment => rfl
  | test c => rfl

/-- Trees that differ in quoted texts only have the same paths. -/
theorem paths_eq_of_masked_eq {c d : Clause} (h : d.masked = c.masked) :
    d.conditions.map Condition.path = c.conditions.map Condition.path := by
  have masked : ∀ c : Clause,
      c.masked.conditions.map Condition.path = c.conditions.map Condition.path := by
    intro c
    rw [conditions_masked, List.map_map]
    exact List.map_congr_left fun t _ => t.path_masked
  rw [← masked d, h, masked c]

/-- The text outside the literals is the same for trees that differ in quoted
texts only. -/
theorem outside_eq_of_masked_eq {c d : Clause} (hr : c.isRawFree = true)
    (hp : ∀ t ∈ c.conditions, mark ∉ t.path.toList) (h : d.masked = c.masked) :
    (scan d.soql).outside = (scan c.soql).outside := by
  have hrd : d.isRawFree = true := by
    rw [← isRawFree_masked, h, isRawFree_masked, hr]
  have hpd : ∀ t ∈ d.conditions, mark ∉ t.path.toList := by
    intro t ht
    have path : t.path ∈ c.conditions.map Condition.path := by
      rw [← paths_eq_of_masked_eq h]
      exact List.mem_map_of_mem ht
    obtain ⟨u, hu, e⟩ := List.mem_map.1 path
    rw [← e]
    exact hp u hu
  -- both texts are alike with the text of the one masked tree
  obtain ⟨out, texts, hc, hm⟩ := c.readsAlike_soql hr hp
  obtain ⟨out', texts', hd, hm'⟩ := d.readsAlike_soql hrd hpd
  rw [h] at hm'
  have outs : out = out' := by
    have := hm.scan_eq.symm.trans hm'.scan_eq
    exact congrArg Scan.outside this
  rw [hc.scan_eq, hd.scan_eq, outs]

/-! ## The scan of a tree -/

/-- The scan of a tree without raw fragments, whose paths have no marks, ends
outside a literal and finds the quoted texts; the text outside the literals is
that of every tree which differs from it in quoted texts only. -/
theorem scan_soql (c : Clause) (hr : c.isRawFree = true)
    (hp : ∀ t ∈ c.conditions, mark ∉ t.path.toList) :
    (scan c.soql).mode = .outside ∧ (scan c.soql).contents = c.quotedTexts ∧
      ∀ d : Clause, d.masked = c.masked →
        (scan d.soql).outside = (scan c.soql).outside := by
  obtain ⟨out, texts, hc, _⟩ := c.readsAlike_soql hr hp
  refine ⟨?_, ?_, fun d h => outside_eq_of_masked_eq hr hp h⟩
  · rw [hc.scan_eq]
  · rw [hc.scan_eq]

/-- A tree whose values try to end their literals. -/
def breakout : Clause :=
  .any [.test (.compare "name" "Name" .eq (.text "x' OR Name != '\\")),
    .not (.test (.compare "stage" "Stage" .startsWith (.text "'\\"))),
    .test (.membership "id" "Id" true [.null, .text "\\'", .array [.text "')", .bool true]])]

/-- `breakout` with other texts. -/
def calm : Clause :=
  .any [.test (.compare "name" "Name" .eq (.text "x")),
    .not (.test (.compare "stage" "Stage" .startsWith (.text ""))),
    .test (.membership "id" "Id" true [.null, .date ⟨2024, 2, 29, by decide⟩, .text "y"])]

theorem scan_soql_breakout :
    breakout.isRawFree = true ∧ (∀ t ∈ breakout.conditions, mark ∉ t.path.toList) ∧
      (scan breakout.soql).mode = .outside ∧
      (scan breakout.soql).contents = ["x' OR Name != '\\", "'\\%", "\\'", "'),true"] ∧
      calm.masked = breakout.masked ∧
      (scan calm.soql).outside = (scan breakout.soql).outside := by
  have hr : breakout.isRawFree = true := by decide
  have hp : ∀ t ∈ breakout.conditions, mark ∉ t.path.toList := by decide
  have hm : calm.masked = breakout.masked := rfl
  obtain ⟨mode, contents, alike⟩ := scan_soql breakout hr hp
  refine ⟨hr, hp, mode, ?_, hm, alike calm hm⟩
  rw [contents]
  decide

end Clause

end FilterQuery

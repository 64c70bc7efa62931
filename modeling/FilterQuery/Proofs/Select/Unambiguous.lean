import FilterQuery.Proofs.Clause.Unambiguous
import FilterQuery.Proofs.Filter.Kept
import FilterQuery.Select.Soql

/-!
# The text of a descriptor is unambiguous

The text of a descriptor is a list of paths, an object and up to four clauses, each
behind its keyword. The literals of a condition may hold any keyword, but its text
ends where its tree does, and the keyword of the next clause is found there. Main
statement: two descriptors over paths that are words have the same text just if they
agree clause by clause.
-/

namespace FilterQuery.Select

/-! ## Clauses that may be missing -/

section Clauses

variable {α : Type} {f : α → List Char} {word : String} {words : List String} {x : List Char}

/-- The characters of a clause with its keyword, if there is one. -/
def clauseChars (word : String) (f : α → List Char) : Option α → List Char
  | some a => ' ' :: (word.toList ++ ' ' :: f a)
  | none => []

@[simp]
theorem clauseChars_none_append (x : List Char) : clauseChars word f none ++ x = x :=
  rfl

@[simp]
theorem clauseChars_some_append (a : α) (x : List Char) :
    clauseChars word f (some a) ++ x = ' ' :: (word.toList ++ ' ' :: (f a ++ x)) := by
  simp [clauseChars]

/-- A text that is empty or goes on with one of the keywords. -/
def GoesOn (words : List String) (x : List Char) : Prop :=
  x = [] ∨ ∃ word ∈ words, ∃ y, x = ' ' :: (word.toList ++ ' ' :: y)

theorem GoesOn.ends (h : GoesOn words x) : Ends x := by
  obtain rfl | ⟨word, _, y, rfl⟩ := h
  · trivial
  · exact rfl

theorem GoesOn.head?_ne (h : GoesOn words x) : x.head? ≠ some ',' := by
  obtain rfl | ⟨word, _, y, rfl⟩ := h <;> simp

theorem GoesOn.clauseChars_append (h : GoesOn words x) (a : Option α) :
    GoesOn (word :: words) (clauseChars word f a ++ x) := by
  cases a with
  | some a => exact .inr ⟨word, by simp, f a ++ x, clauseChars_some_append a x⟩
  | none => exact h.imp_right fun ⟨w, hw, y, hy⟩ => ⟨w, by simp [hw], y, hy⟩

theorem goesOn_clauseChars (a : Option α) : GoesOn [word] (clauseChars word f a) := by
  have empty : GoesOn [] [] := .inl rfl
  simpa using empty.clauseChars_append a

/-- What goes on with other keywords does not begin with this one. -/
theorem GoesOn.ne_clause (h : GoesOn words x)
    (unbroken : ∀ w ∈ word :: words, IsUnbroken w.toList) (fresh : word ∉ words)
    (y : List Char) : x ≠ ' ' :: (word.toList ++ ' ' :: y) := by
  rintro rfl
  obtain h | ⟨w, hw, z, h⟩ := h
  · cases h
  · have same := (Reading.append_blank_inj (unbroken word (by simp)) (unbroken w (by simp [hw]))
      (List.cons.inj h).2).1
    exact fresh (String.toList_injective same ▸ hw)

/-- A clause in front of clauses with other keywords. The text tells whether it is
there, and what may be concluded of what it says may be concluded of the clause. -/
theorem clauseChars_append_inj {y : List Char}
    (unbroken : ∀ w ∈ word :: words, IsUnbroken w.toList) (fresh : word ∉ words)
    {a b : Option α} (hx : GoesOn words x) (hy : GoesOn words y)
    (part : ∀ u ∈ a, ∀ v ∈ b, f u ++ x = f v ++ y → u = v ∧ x = y)
    (h : clauseChars word f a ++ x = clauseChars word f b ++ y) : a = b ∧ x = y := by
  -- a clause on one side only would have to begin what follows on the other
  cases a with
  | none =>
    cases b with
    | none => exact ⟨rfl, h⟩
    | some v =>
      rw [clauseChars_none_append, clauseChars_some_append] at h
      exact absurd h (hx.ne_clause unbroken fresh _)
  | some u =>
    cases b with
    | none =>
      rw [clauseChars_some_append, clauseChars_none_append] at h
      exact absurd h.symm (hy.ne_clause unbroken fresh _)
    | some v =>
      rw [clauseChars_some_append, clauseChars_some_append, List.cons.injEq,
        List.append_cancel_left_eq, List.cons.injEq] at h
      obtain ⟨rfl, hxy⟩ := part u rfl v rfl h.2.2
      exact ⟨rfl, hxy⟩

end Clauses

/-! ## The text of a descriptor -/

/-- The order, by paths. -/
def order (s : Select) : List (String × SortDirection) :=
  s.orderBy.map fun o => (s.model.pathFor o.field, o.direction)

def sortKeyChars (o : String × SortDirection) : List Char :=
  o.1.toList ++ ' ' :: o.2.keyword.toList

/-- The characters of an order after the first word of its keyword. -/
def orderChars (os : List (String × SortDirection)) : List Char :=
  "BY".toList ++ ' ' :: separated sortKeyChars os

@[simp]
theorem orderChars_append (os : List (String × SortDirection)) (x : List Char) :
    orderChars os ++ x = "BY".toList ++ ' ' :: (separated sortKeyChars os ++ x) := by
  simp [orderChars]

def countChars (n : UInt64) : List Char :=
  decimalDigits n.toNat

/-- The characters of the limit and the offset. -/
def pageChars (s : Select) : List Char :=
  clauseChars "LIMIT" countChars (s.limit.filter (· ≠ 0)) ++
    clauseChars "OFFSET" countChars (s.offset.filter (· ≠ 0))

/-- The characters of the order and of what follows it. -/
def orderedChars (s : Select) : List Char :=
  clauseChars "ORDER" orderChars (Option.guard (· ≠ []) s.order) ++ s.pageChars

/-- The characters of the condition and of what follows it. -/
def clausesChars (s : Select) : List Char :=
  clauseChars "WHERE" String.toList (s.filter.map Clause.soql) ++ s.orderedChars

@[simp]
theorem toList_whereText (s : Select) :
    s.whereText.toList = clauseChars "WHERE" String.toList (s.filter.map Clause.soql) := by
  unfold whereText
  cases s.filter with
  | none => rfl
  | some c => simp [clauseChars]

@[simp]
theorem toList_sortKeyText (s : Select) (o : SortKey) :
    (s.sortKeyText o).toList = sortKeyChars (s.model.pathFor o.field, o.direction) := by
  simp [sortKeyText, sortKeyChars]

@[simp]
theorem toList_orderText (s : Select) :
    s.orderText.toList = clauseChars "ORDER" orderChars (Option.guard (· ≠ []) s.order) := by
  have keys : (", ".intercalate (s.orderBy.map s.sortKeyText)).toList =
      separated sortKeyChars s.order := by
    rw [toList_separated, separated_map, order, separated_map]
    simp
  unfold orderText
  cases h : s.orderBy with
  | nil => simp [order, h, Option.guard, clauseChars]
  | cons o os =>
    have given : Option.guard (· ≠ []) s.order = some s.order := by
      simp [order, h]
    rw [given, clauseChars, orderChars, ← keys, h]
    simp

theorem toList_countText (word : String) (n : Option UInt64) :
    (countText (" " ++ word ++ " ") n).toList =
      clauseChars word countChars (n.filter (· ≠ 0)) := by
  cases n with
  | none => rfl
  | some n =>
    by_cases h : n = 0
    · subst h
      rfl
    · have positive : n.toNat ≠ 0 := fun e => h (UInt64.toNat_inj.1 e)
      simp [countText, positive, h, Option.filter, clauseChars, countChars, decimalDigits]

@[simp]
theorem toList_soql (s : Select) :
    s.soql.toList = "SELECT".toList ++ ' ' :: (separated String.toList s.projection ++
      ' ' :: ("FROM".toList ++ ' ' :: (s.model.object.toList ++ s.clausesChars))) := by
  have limit : (countText " LIMIT " s.limit).toList = _ := toList_countText "LIMIT" s.limit
  have offset : (countText " OFFSET " s.offset).toList = _ := toList_countText "OFFSET" s.offset
  unfold soql clausesChars orderedChars pageChars
  rw [← limit, ← offset, ← toList_orderText, ← toList_whereText, ← toList_separated]
  simp only [String.toList_append, List.append_assoc]
  rfl

/-! ## What the text determines -/

/-- What makes the text of a descriptor unambiguous: paths that are words, and a
condition whose text is. -/
structure IsReadable (s : Select) : Prop where
  columns : ∀ path ∈ s.projection, IsPathWord path
  object : IsPathWord s.model.object
  condition : ∀ c ∈ s.filter, c.IsReadable
  order : ∀ o ∈ s.order, IsPathWord o.1

/-- Descriptors that agree clause by clause. A condition counts by its text, and a
limit or offset of zero is none. -/
structure Agrees (a b : Select) : Prop where
  columns : a.projection = b.projection
  object : a.model.object = b.model.object
  condition : a.filter.map Clause.soql = b.filter.map Clause.soql
  order : a.order = b.order
  limit : a.limit.filter (· ≠ 0) = b.limit.filter (· ≠ 0)
  offset : a.offset.filter (· ≠ 0) = b.offset.filter (· ≠ 0)

theorem path_append_inj {p q : String} (hp : IsPathWord p) (hq : IsPathWord q) {x y : List Char}
    (hx : Ends x) (hy : Ends y) (h : p.toList ++ x = q.toList ++ y) : p = q ∧ x = y := by
  obtain ⟨hpq, hxy⟩ := IsUnbroken.append_inj hp.isUnbroken hq.isUnbroken hx hy h
  exact ⟨String.toList_injective hpq, hxy⟩

theorem condition_append_inj {c d : Clause} (hc : c.IsReadable) (hd : d.IsReadable)
    {x y : List Char} (hx : Ends x) (hy : Ends y)
    (h : c.soql.toList ++ x = d.soql.toList ++ y) : c.soql = d.soql ∧ x = y := by
  rw [Clause.toList_soql, Clause.toList_soql] at h
  obtain ⟨same, hxy⟩ :=
    (Clause.legible_reading hc).determined _ (Clause.legible_reading hd) x y hx hy h
  refine ⟨String.toList_injective ?_, hxy⟩
  rw [Clause.toList_soql, Clause.toList_soql, same]

theorem sortKey_append_inj {o p : String × SortDirection} (ho : IsPathWord o.1)
    (hp : IsPathWord p.1) {x y : List Char} (hx : Ends x) (hy : Ends y)
    (h : sortKeyChars o ++ x = sortKeyChars p ++ y) : o = p ∧ x = y := by
  have unbroken : ∀ d : SortDirection, IsUnbroken d.keyword.toList := by
    intro d
    cases d <;> decide
  have distinct : ∀ {d e : SortDirection}, d.keyword = e.keyword → d = e := by
    intro d e
    cases d <;> cases e <;> decide
  obtain ⟨path, direction⟩ := o
  obtain ⟨path', direction'⟩ := p
  simp only [sortKeyChars, List.append_assoc, List.cons_append] at h
  obtain ⟨rfl, rest⟩ := Reading.path_append_blank_inj ho hp h
  obtain ⟨word, hxy⟩ := IsUnbroken.append_inj (unbroken _) (unbroken _) hx hy rest
  cases distinct (String.toList_injective word)
  exact ⟨rfl, hxy⟩

theorem count_append_inj {m n : UInt64} {x y : List Char} (hx : Ends x) (hy : Ends y)
    (h : countChars m ++ x = countChars n ++ y) : m = n ∧ x = y := by
  have unbroken : ∀ k : UInt64, IsUnbroken (countChars k) := fun k =>
    isUnbroken_of_forall (by decide) fun c hc => isBare_of_mem_decimalDigits hc
  obtain ⟨digits, hxy⟩ := IsUnbroken.append_inj (unbroken m) (unbroken n) hx hy h
  exact ⟨UInt64.toNat_inj.1 (decimalDigits_injective digits), hxy⟩

theorem goesOn_pageChars (s : Select) : GoesOn ["LIMIT", "OFFSET"] s.pageChars :=
  (goesOn_clauseChars _).clauseChars_append _

theorem goesOn_orderedChars (s : Select) :
    GoesOn ["ORDER", "LIMIT", "OFFSET"] s.orderedChars :=
  s.goesOn_pageChars.clauseChars_append _

theorem goesOn_clausesChars (s : Select) :
    GoesOn ["WHERE", "ORDER", "LIMIT", "OFFSET"] s.clausesChars :=
  s.goesOn_orderedChars.clauseChars_append _

theorem order_append_inj {os ps : List (String × SortDirection)} (hos : os ≠ []) (hps : ps ≠ [])
    (ho : ∀ o ∈ os, IsPathWord o.1) (hp : ∀ p ∈ ps, IsPathWord p.1) {words : List String}
    {x y : List Char} (hx : GoesOn words x) (hy : GoesOn words y)
    (h : orderChars os ++ x = orderChars ps ++ y) : os = ps ∧ x = y := by
  rw [orderChars_append, orderChars_append, List.append_cancel_left_eq, List.cons.injEq] at h
  exact separated_append_inj sortKeyChars hos hps ⟨hx.ends, hx.head?_ne⟩ ⟨hy.ends, hy.head?_ne⟩
    (fun o hmo p hmp _ _ hx hy e => sortKey_append_inj (ho o hmo) (hp p hmp) hx hy e) h.2

theorem pageChars_inj {a b : Select} (h : a.pageChars = b.pageChars) :
    a.limit.filter (· ≠ 0) = b.limit.filter (· ≠ 0) ∧
      a.offset.filter (· ≠ 0) = b.offset.filter (· ≠ 0) := by
  have offsets : ∀ s : Select, GoesOn ["OFFSET"]
      (clauseChars "OFFSET" countChars (s.offset.filter (· ≠ 0))) := fun s => goesOn_clauseChars _
  have empty : GoesOn [] [] := .inl rfl
  obtain ⟨limit, rest⟩ := clauseChars_append_inj (by decide) (by decide) (offsets a) (offsets b)
    (fun _ _ _ _ e => count_append_inj (offsets a).ends (offsets b).ends e) h
  obtain ⟨offset, _⟩ := clauseChars_append_inj (by decide) (by decide) empty empty
    (fun _ _ _ _ e => count_append_inj empty.ends empty.ends e) (congrArg (· ++ []) rest)
  exact ⟨limit, offset⟩

theorem orderedChars_inj {a b : Select} (ha : a.IsReadable) (hb : b.IsReadable)
    (h : a.orderedChars = b.orderedChars) : a.order = b.order ∧ a.pageChars = b.pageChars := by
  have keys : ∀ os ∈ Option.guard (· ≠ []) a.order, ∀ ps ∈ Option.guard (· ≠ []) b.order,
      orderChars os ++ a.pageChars = orderChars ps ++ b.pageChars →
        os = ps ∧ a.pageChars = b.pageChars := by
    intro os hos ps hps e
    obtain ⟨rfl, some_key⟩ := Option.guard_eq_some_iff.1 hos
    obtain ⟨rfl, some_key'⟩ := Option.guard_eq_some_iff.1 hps
    exact order_append_inj (of_decide_eq_true some_key) (of_decide_eq_true some_key') ha.order
      hb.order a.goesOn_pageChars b.goesOn_pageChars e
  obtain ⟨given, rest⟩ := clauseChars_append_inj (by decide) (by decide) a.goesOn_pageChars
    b.goesOn_pageChars keys h
  refine ⟨?_, rest⟩
  -- an order that is missing is an empty one
  cases ho : a.order <;> cases hp : b.order <;> simp_all [Option.guard]

theorem clausesChars_inj {a b : Select} (ha : a.IsReadable) (hb : b.IsReadable)
    (h : a.clausesChars = b.clausesChars) :
    a.filter.map Clause.soql = b.filter.map Clause.soql ∧ a.orderedChars = b.orderedChars := by
  refine clauseChars_append_inj (by decide) (by decide) a.goesOn_orderedChars
    b.goesOn_orderedChars (fun u hu v hv e => ?_) h
  obtain ⟨c, hc, rfl⟩ := Option.map_eq_some_iff.1 hu
  obtain ⟨d, hd, rfl⟩ := Option.map_eq_some_iff.1 hv
  exact condition_append_inj (ha.condition c hc) (hb.condition d hd)
    a.goesOn_orderedChars.ends b.goesOn_orderedChars.ends e

theorem projection_ne_nil (s : Select) : s.projection ≠ [] := by
  unfold projection
  split <;> simp_all

theorem agrees_of_soql_eq {a b : Select} (ha : a.IsReadable) (hb : b.IsReadable)
    (h : a.soql = b.soql) : a.Agrees b := by
  rw [← String.toList_inj, toList_soql, toList_soql, List.append_cancel_left_eq,
    List.cons.injEq] at h
  have blank : ∀ x : List Char, Ends (' ' :: x) ∧ (' ' :: x).head? ≠ some ',' :=
    fun x => ⟨rfl, by simp⟩
  -- from the left, each part ends where the blank before the next keyword stands
  obtain ⟨columns, rest⟩ := separated_append_inj String.toList a.projection_ne_nil
    b.projection_ne_nil (blank _) (blank _)
    (fun p hp q hq _ _ hx hy e => path_append_inj (ha.columns p hp) (hb.columns q hq) hx hy e) h.2
  simp only [List.cons.injEq, List.append_cancel_left_eq, true_and] at rest
  obtain ⟨object, rest⟩ := path_append_inj ha.object hb.object a.goesOn_clausesChars.ends
    b.goesOn_clausesChars.ends rest
  obtain ⟨condition, rest⟩ := clausesChars_inj ha hb rest
  obtain ⟨order, rest⟩ := orderedChars_inj ha hb rest
  obtain ⟨limit, offset⟩ := pageChars_inj rest
  exact ⟨columns, object, condition, order, limit, offset⟩

/-- Two descriptors have the same text just if they agree clause by clause. -/
theorem soql_eq_iff_agrees {a b : Select} (ha : a.IsReadable) (hb : b.IsReadable) :
    a.soql = b.soql ↔ a.Agrees b := by
  refine ⟨agrees_of_soql_eq ha hb, fun h => ?_⟩
  rw [← String.toList_inj]
  simp only [toList_soql, clausesChars, orderedChars, pageChars, h.columns, h.object,
    h.condition, h.order, h.limit, h.offset]

/-- Deals whose name holds the words of clauses behind a mark. -/
def quoted : Select where
  model := .deals
  selection := some (.ofKeys ["id"])
  filter := some (.test (.compare "name" "Name" .eq (.text "x' ORDER BY Id LIMIT 1 FROM Deal")))
  limit := some 0

/-- `quoted` by a key that stands for itself and without a limit. -/
def quotedByPath : Select where
  model := .deals
  selection := some (.ofKeys ["Id"])
  filter := some (.test (.compare "title" "Name" .eq (.text "x' ORDER BY Id LIMIT 1 FROM Deal")))

/-- The words of clauses outside the name. -/
def unquoted : Select where
  model := .deals
  selection := some (.ofKeys ["id"])
  filter := some (.test (.compare "name" "Name" .eq (.text "x")))
  orderBy := [⟨"id", .asc⟩]
  limit := some 1

theorem soql_eq_iff_agrees_quoted :
    (quoted.IsReadable ∧ quotedByPath.IsReadable ∧ quoted.soql = quotedByPath.soql) ∧
      unquoted.IsReadable ∧ quoted.soql ≠ unquoted.soql := by
  have tested : ∀ t : Condition, IsPathWord t.path → ∀ c ∈ some (Clause.test t), c.IsReadable := by
    rintro t ht _ ⟨⟩
    exact ⟨rfl, rfl, by simpa [Clause.conditions] using ht⟩
  have hq : quoted.IsReadable := ⟨by decide, by decide, tested _ (by decide), by decide⟩
  have hp : quotedByPath.IsReadable := ⟨by decide, by decide, tested _ (by decide), by decide⟩
  have hu : unquoted.IsReadable := ⟨by decide, by decide, tested _ (by decide), by decide⟩
  refine ⟨⟨hq, hp, (soql_eq_iff_agrees hq hp).2 ⟨rfl, rfl, rfl, rfl, rfl, rfl⟩⟩, hu, fun h => ?_⟩
  have same := ((soql_eq_iff_agrees hq hu).1 h).limit
  exact absurd same (by decide)

end FilterQuery.Select

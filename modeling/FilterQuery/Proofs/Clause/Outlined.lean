import FilterQuery.Clause.Outline
import FilterQuery.Proofs.Clause.Shape
import FilterQuery.Proofs.Condition.Summary
import FilterQuery.Text.Basic

/-!
# The outline of a condition tree shows the tree

The outline is a walk through the tree with one line for each node. No text of a value and
no fragment breaks a line or looks like another line, since it stands between quotes, and
what stands in front of the quotes tells the node. The indentation tells the level, and the
levels of the nodes of a walk tell the tree: a child is the next node that stands one level
below, and the children end where the walk comes back to the level of their parent. Main
statement: the lines of the outline are those of the nodes, and two trees have the same
outline just if they are the same but for the kinds of their values.
-/

namespace FilterQuery

/-! ## Nodes -/

/-- A node of a tree without its children. -/
inductive Node
  | all
  | any
  | not
  | raw (fragment : String)
  | test (c : Condition)

namespace Node

/-- The text of a node in the outline. -/
def heading : Node → String
  | .all => "and"
  | .any => "or"
  | .not => "not"
  | .raw fragment => "raw " ++ Quoted.quote fragment
  | .test c => c.summary

/-- A node with the texts of its values. -/
def untyped : Node → Node
  | .test c => .test c.untyped
  | n => n

/-- Key and path are made of the characters of paths, where there is a condition. -/
def IsNamed : Node → Prop
  | .test c => c.IsNamed
  | _ => True

@[simp]
theorem heading_untyped (n : Node) : n.untyped.heading = n.heading := by
  cases n with
  | all | any | not | raw => rfl
  | test c => exact c.summary_untyped

/-- The first word of the heading of a node. -/
def word : Node → String
  | .all => "and"
  | .any => "or"
  | .not => "not"
  | .raw _ => "raw"
  | .test c => c.key

/-- The heading of a node from the end of its first word on. -/
def details : Node → List Char
  | .all | .any | .not => []
  | .raw fragment => ' ' :: (Quoted.quote fragment).toList
  | .test c => '[' ::
      (c.path.toList ++ ']' :: ' ' :: (c.op.name.toList ++ c.operand.summary.toList))

theorem toList_heading (n : Node) : n.heading.toList = n.word.toList ++ n.details := by
  cases n with
  | all | any | not => rfl
  | raw fragment => simp [heading, word, details]
  | test c => exact c.toList_summary

theorem IsNamed.isName_word {n : Node} (h : n.IsNamed) : IsName n.word := by
  cases n with
  | all => exact (by decide : IsName "and")
  | any => exact (by decide : IsName "or")
  | not => exact (by decide : IsName "not")
  | raw => exact (by decide : IsName "raw")
  | test c => exact h.key

theorem not_isPathChar_details (n : Node) : ∀ c ∈ n.details.head?, isPathChar c = false := by
  cases n with
  | all | any | not => exact nofun
  | raw fragment => rintro c ⟨⟩; decide
  | test t => exact not_isPathChar_bracket _ (.inl rfl)

theorem untyped_eq_of_heading_eq {m n : Node} (hm : m.IsNamed) (hn : n.IsNamed)
    (h : m.heading = n.heading) : m.untyped = n.untyped := by
  have chars := congrArg String.toList h
  rw [toList_heading, toList_heading] at chars
  obtain ⟨words, details⟩ := hm.isName_word.append_inj hn.isName_word m.not_isPathChar_details
    n.not_isPathChar_details chars
  -- a key may be any of the words, but then another character follows it
  cases m with
  | all =>
    cases n with
    | all => rfl
    | any | not => exact absurd words (by decide)
    | raw | test => cases details
  | any =>
    cases n with
    | any => rfl
    | all | not => exact absurd words (by decide)
    | raw | test => cases details
  | not =>
    cases n with
    | not => rfl
    | all | any => exact absurd words (by decide)
    | raw | test => cases details
  | raw fragment =>
    cases n with
    | all | any | not => cases details
    | test c => exact absurd (List.cons.inj details).1 (by decide)
    | raw fragment' =>
      have quotes := congrArg (· ++ []) (List.cons.inj details).2
      rw [(Quoted.quote_append_inj quotes).1]
  | test c =>
    cases n with
    | all | any | not => cases details
    | raw fragment => exact absurd (List.cons.inj details).1 (by decide)
    | test d => exact congrArg test (Condition.untyped_eq_of_summary_eq hm hn h)

theorem feed_notMem_heading {n : Node} (h : n.IsNamed) : '\n' ∉ n.heading.toList := by
  cases n with
  | all | any | not => exact (by decide)
  | raw fragment => simpa [heading] using Quoted.feed_notMem_quote fragment
  | test c => exact Condition.feed_notMem_summary h

/-- No heading begins with a blank, since no name has one; an empty key is followed by a
bracket. -/
theorem IsNamed.heading_ne_blank {n : Node} (h : n.IsNamed) :
    ∀ c ∈ n.heading.toList.head?, (c == ' ') = false := by
  intro c hc
  rw [toList_heading] at hc
  cases word : n.word.toList with
  | cons d ds =>
    rw [word] at hc
    obtain rfl : d = c := Option.some.inj hc
    have name : isPathChar d = true := h.isName_word d (by simp [word])
    refine Bool.eq_false_iff.2 fun blank => ?_
    rw [beq_iff_eq.1 blank] at name
    exact absurd name (by decide)
  | nil =>
    rw [word] at hc
    cases n with
    | all | any | not | raw => simp [Node.word] at word
    | test t =>
      obtain rfl : '[' = c := Option.some.inj hc
      decide

/-! ## Lines -/

/-- The line of a node that stands at a level of the tree. -/
def line (n : Nat × Node) : String :=
  Clause.indent n.1 ++ n.2.heading

/-- The indentation ends where the heading begins. -/
theorem untyped_eq_of_line_eq {m n : Nat × Node} (hm : m.2.IsNamed) (hn : n.2.IsNamed)
    (h : line m = line n) : (m.1, m.2.untyped) = (n.1, n.2.untyped) := by
  have blanks (k : Nat) : ∀ c ∈ (Clause.indent k).toList, (c == ' ') = true := by
    intro c hc
    rw [Clause.indent, String.toList_ofList] at hc
    exact beq_iff_eq.2 (List.eq_of_mem_replicate hc)
  have chars := congrArg String.toList h
  rw [line, line, String.toList_append, String.toList_append] at chars
  obtain ⟨indents, headings⟩ := run_append_inj (blanks m.1) (blanks n.1) hm.heading_ne_blank
    hn.heading_ne_blank chars
  have lengths := congrArg List.length indents
  simp only [Clause.indent, String.toList_ofList, List.length_replicate] at lengths
  rw [untyped_eq_of_heading_eq hm hn (String.toList_injective headings),
    Nat.eq_of_mul_eq_mul_left (by decide) lengths]

theorem feed_notMem_line {n : Nat × Node} (h : n.2.IsNamed) : '\n' ∉ (line n).toList := by
  have indent : '\n' ∉ (Clause.indent n.1).toList := by simp [Clause.indent]
  rw [line, String.toList_append, List.mem_append, not_or]
  exact ⟨indent, feed_notMem_heading h⟩

theorem map_untyped_eq_of_map_line_eq {ms ns : List (Nat × Node)} (hm : ∀ m ∈ ms, m.2.IsNamed)
    (hn : ∀ n ∈ ns, n.2.IsNamed) (h : ms.map line = ns.map line) :
    (ms.map fun m => (m.1, m.2.untyped)) = ns.map fun n => (n.1, n.2.untyped) := by
  induction ms generalizing ns with
  | nil =>
    cases ns with
    | nil => rfl
    | cons n ns => cases h
  | cons m ms ih =>
    cases ns with
    | nil => cases h
    | cons n ns =>
      obtain ⟨hm, hms⟩ := List.forall_mem_cons.1 hm
      obtain ⟨hn, hns⟩ := List.forall_mem_cons.1 hn
      obtain ⟨first, others⟩ := List.cons.inj h
      rw [List.map_cons, List.map_cons, ih hms hns others, untyped_eq_of_line_eq hm hn first]

end Node

/-! ## Walks -/

namespace Clause

mutual

/-- The nodes of a tree in the order of a walk from the top, each with its level; the topmost
node stands at `level`. -/
def nodes (level : Nat) : Clause → List (Nat × Node)
  | .all cs => (level, .all) :: nodesAll (level + 1) cs
  | .any cs => (level, .any) :: nodesAll (level + 1) cs
  | .not c => (level, .not) :: nodes (level + 1) c
  | .raw fragment => [(level, .raw fragment)]
  | .test c => [(level, .test c)]

/-- The nodes of trees that stand side by side. -/
def nodesAll (level : Nat) : List Clause → List (Nat × Node)
  | [] => []
  | c :: cs => nodes level c ++ nodesAll level cs

end

@[simp, grind =]
theorem nodesAll_eq_flatMap (level : Nat) (cs : List Clause) :
    nodesAll level cs = cs.flatMap (nodes level) := by
  induction cs with
  | nil => rfl
  | cons c cs ih => rw [nodesAll, ih, List.flatMap_cons]

/-- A walk begins at its own level. -/
theorem nodes_eq_cons (level : Nat) (c : Clause) : ∃ n rest, c.nodes level = (level, n) :: rest := by
  cases c with
  | all | any | not | raw | test => exact ⟨_, _, rfl⟩

/-- What follows a walk is above `level`, or nothing. -/
def Above (level : Nat) (x : List (Nat × Node)) : Prop :=
  ∀ n ∈ x.head?, n.1 < level

theorem Above.nodesAll_append {level : Nat} {x : List (Nat × Node)} (hx : Above level x)
    (cs : List Clause) : Above (level + 1) (nodesAll level cs ++ x) := by
  cases cs with
  | nil => exact fun n hn => Nat.lt_succ_of_lt (hx n hn)
  | cons c cs =>
    obtain ⟨n, rest, walk⟩ := nodes_eq_cons level c
    rw [nodesAll, walk]
    rintro m ⟨⟩
    exact Nat.lt_succ_self level

/-- What the front of a walk determines: the tree, and the walk behind it. -/
def WalksApart (a : Clause) : Prop :=
  ∀ (b : Clause) (level : Nat) (x y : List (Nat × Node)), Above (level + 1) x →
    Above (level + 1) y → a.nodes level ++ x = b.nodes level ++ y → a = b ∧ x = y

theorem nodesAll_append_inj {as bs : List Clause} (ha : ∀ a ∈ as, WalksApart a) {level : Nat}
    {x y : List (Nat × Node)} (hx : Above level x) (hy : Above level y)
    (h : nodesAll level as ++ x = nodesAll level bs ++ y) : as = bs ∧ x = y := by
  -- a walk on one side only would have to begin above its own level on the other
  have behind {c : Clause} {cs : List Clause} {x y : List (Nat × Node)} (hx : Above level x) :
      x ≠ nodesAll level (c :: cs) ++ y := by
    obtain ⟨n, rest, walk⟩ := nodes_eq_cons level c
    rw [nodesAll, walk]
    rintro rfl
    exact Nat.lt_irrefl level (hx _ rfl)
  induction as generalizing bs with
  | nil =>
    cases bs with
    | nil => exact ⟨rfl, h⟩
    | cons b bs => exact absurd h (behind hx)
  | cons a as ih =>
    cases bs with
    | nil => exact absurd h.symm (behind hy)
    | cons b bs =>
      obtain ⟨here, others⟩ := List.forall_mem_cons.1 ha
      rw [nodesAll, nodesAll, List.append_assoc, List.append_assoc] at h
      obtain ⟨rfl, rest⟩ := here b level _ _ (hx.nodesAll_append as) (hy.nodesAll_append bs) h
      obtain ⟨rfl, hxy⟩ := ih others rest
      exact ⟨rfl, hxy⟩

theorem walksApart (a : Clause) : WalksApart a := by
  induction a with
  | all as ih =>
    intro b level x y hx hy h
    cases b with
    | all bs =>
      obtain ⟨rfl, hxy⟩ := nodesAll_append_inj ih hx hy (List.cons.inj h).2
      exact ⟨rfl, hxy⟩
    | any | not | raw | test => cases (List.cons.inj h).1
  | any as ih =>
    intro b level x y hx hy h
    cases b with
    | any bs =>
      obtain ⟨rfl, hxy⟩ := nodesAll_append_inj ih hx hy (List.cons.inj h).2
      exact ⟨rfl, hxy⟩
    | all | not | raw | test => cases (List.cons.inj h).1
  | not a ih =>
    intro b level x y hx hy h
    cases b with
    | not b =>
      have deeper {z : List (Nat × Node)} (hz : Above (level + 1) z) : Above (level + 2) z :=
        fun n hn => Nat.lt_succ_of_lt (hz n hn)
      obtain ⟨rfl, hxy⟩ := ih b (level + 1) x y (deeper hx) (deeper hy) (List.cons.inj h).2
      exact ⟨rfl, hxy⟩
    | all | any | raw | test => cases (List.cons.inj h).1
  | raw fragment =>
    intro b level x y hx hy h
    cases b with
    | raw fragment' =>
      obtain ⟨node, hxy⟩ := List.cons.inj h
      cases node
      exact ⟨rfl, hxy⟩
    | all | any | not | test => cases (List.cons.inj h).1
  | test c =>
    intro b level x y hx hy h
    cases b with
    | test d =>
      obtain ⟨node, hxy⟩ := List.cons.inj h
      cases node
      exact ⟨rfl, hxy⟩
    | all | any | not | raw => cases (List.cons.inj h).1

/-- A tree is determined by the nodes of the walk through it, each with its level. -/
theorem eq_of_nodes_eq {a b : Clause} {level : Nat} (h : a.nodes level = b.nodes level) :
    a = b := by
  have nothing : Above (level + 1) [] := nofun
  exact (walksApart a b level [] [] nothing nothing (congrArg (· ++ []) h)).1

/-! ## Outlines -/

/-- The keys and paths of the conditions are made of the characters of paths. -/
def IsNamed (c : Clause) : Prop :=
  ∀ t ∈ c.conditions, t.IsNamed

instance : DecidablePred IsNamed := fun c =>
  inferInstanceAs (Decidable (∀ t ∈ c.conditions, t.IsNamed))

mutual

/-- A tree with the texts of its values. -/
@[simp] def untyped : Clause → Clause
  | .all cs => .all (untypedAll cs)
  | .any cs => .any (untypedAll cs)
  | .not c => .not (untyped c)
  | .raw fragment => .raw fragment
  | .test c => .test c.untyped

/-- `untyped`, tree by tree. -/
def untypedAll : List Clause → List Clause
  | [] => []
  | c :: cs => untyped c :: untypedAll cs

end

@[simp, grind =]
theorem untypedAll_eq_map (cs : List Clause) : untypedAll cs = cs.map untyped := by
  induction cs with
  | nil => rfl
  | cons c cs ih => rw [untypedAll, ih, List.map_cons]

theorem isNamed_of_mem_nodes {c : Clause} (h : c.IsNamed) {level : Nat} :
    ∀ n ∈ c.nodes level, n.2.IsNamed := by
  have children {cs : List Clause} (h : ∀ t ∈ conditionsAll cs, t.IsNamed)
      (ih : ∀ c ∈ cs, c.IsNamed → ∀ {level : Nat}, ∀ n ∈ c.nodes level, n.2.IsNamed)
      {level : Nat} : ∀ n ∈ nodesAll level cs, n.2.IsNamed := by
    intro n hn
    rw [nodesAll_eq_flatMap] at hn
    obtain ⟨c, hc, hn⟩ := List.mem_flatMap.1 hn
    exact ih c hc (fun t ht => h t (mem_conditions_of_mem hc ht)) n hn
  induction c generalizing level with
  | all cs ih => exact List.forall_mem_cons.2 ⟨trivial, children h ih⟩
  | any cs ih => exact List.forall_mem_cons.2 ⟨trivial, children h ih⟩
  | not c ih => exact List.forall_mem_cons.2 ⟨trivial, ih h⟩
  | raw fragment => exact List.forall_mem_singleton.2 trivial
  | test c => exact List.forall_mem_singleton.2 (h c (List.mem_singleton_self c))

@[simp]
theorem nodes_untyped (c : Clause) (level : Nat) :
    c.untyped.nodes level = (c.nodes level).map fun n => (n.1, n.2.untyped) := by
  have children {cs : List Clause} (ih : ∀ c ∈ cs, ∀ level,
      c.untyped.nodes level = (c.nodes level).map fun n => (n.1, n.2.untyped)) (level : Nat) :
      nodesAll level (untypedAll cs) =
        (nodesAll level cs).map fun n => (n.1, n.2.untyped) := by
    rw [untypedAll_eq_map, nodesAll_eq_flatMap, nodesAll_eq_flatMap, List.flatMap_map,
      List.map_flatMap, List.flatMap_def, List.flatMap_def,
      List.map_congr_left fun c hc => ih c hc level]
  induction c generalizing level with
  | all cs ih => rw [untyped, nodes, children ih, nodes, List.map_cons]; rfl
  | any cs ih => rw [untyped, nodes, children ih, nodes, List.map_cons]; rfl
  | not c ih => rw [untyped, nodes, ih, nodes, List.map_cons]; rfl
  | raw fragment => rfl
  | test c => rfl

theorem outlineLines_eq (c : Clause) (level : Nat) :
    c.outlineLines level = (c.nodes level).map Node.line := by
  have children {cs : List Clause}
      (ih : ∀ c ∈ cs, ∀ level, c.outlineLines level = (c.nodes level).map Node.line)
      (level : Nat) : outlineAll level cs = (nodesAll level cs).map Node.line := by
    induction cs with
    | nil => rfl
    | cons c cs ihs =>
      obtain ⟨first, others⟩ := List.forall_mem_cons.1 ih
      rw [outlineAll, nodesAll, List.map_append, first, ihs others]
  induction c generalizing level with
  | all cs ih => rw [outlineLines, children ih, nodes, List.map_cons]; rfl
  | any cs ih => rw [outlineLines, children ih, nodes, List.map_cons]; rfl
  | not c ih => rw [outlineLines, ih, nodes, List.map_cons]; rfl
  | raw fragment => simp [outlineLines, nodes, Node.line, Node.heading, String.append_assoc]
  | test c => rfl

@[simp]
theorem outline_untyped (c : Clause) : c.untyped.outline = c.outline := by
  have lines : c.untyped.outlineLines 0 = c.outlineLines 0 := by
    rw [outlineLines_eq, outlineLines_eq, nodes_untyped, List.map_map]
    exact List.map_congr_left fun n _ => congrArg (indent n.1 ++ ·) n.2.heading_untyped
  rw [outline, outline, lines]

theorem partsAt_outline {c : Clause} (h : c.IsNamed) :
    partsAt '\n' c.outline = (c.nodes 0).map Node.line ++ [""] := by
  rw [outline, outlineLines_eq]
  refine partsAt_join fun line hl => ?_
  obtain ⟨n, hn, rfl⟩ := List.mem_map.1 hl
  exact Node.feed_notMem_line (isNamed_of_mem_nodes h n hn)

theorem untyped_eq_of_outline_eq {a b : Clause} (ha : a.IsNamed) (hb : b.IsNamed)
    (h : a.outline = b.outline) : a.untyped = b.untyped := by
  have parts := congrArg (partsAt '\n') h
  rw [partsAt_outline ha, partsAt_outline hb] at parts
  have nodes := Node.map_untyped_eq_of_map_line_eq (isNamed_of_mem_nodes ha)
    (isNamed_of_mem_nodes hb) (List.append_cancel_right parts)
  rw [← nodes_untyped, ← nodes_untyped] at nodes
  exact eq_of_nodes_eq nodes

/-- Where keys and paths are made of the characters of paths, the lines of an outline are those
of the nodes on a walk through the tree, and an outline tells the tree: its nodes and their
order, the fragments, and of each condition all but the kinds of its values. -/
theorem outline_eq_iff_untyped_eq {a : Clause} (ha : a.IsNamed) :
    partsAt '\n' a.outline = (a.nodes 0).map Node.line ++ [""] ∧
      ∀ b : Clause, b.IsNamed → (a.outline = b.outline ↔ a.untyped = b.untyped) := by
  refine ⟨partsAt_outline ha, fun b hb => ⟨untyped_eq_of_outline_eq ha hb, fun h => ?_⟩⟩
  rw [← outline_untyped a, h, outline_untyped b]

/-- A tree whose texts try to end their lines and to go on as other nodes. -/
def forged : Clause :=
  .all [.any [], .raw "x\"\n  or",
    .not (.any [.test (.compare "and" "Name" .eq (.text "y\"\n    raw \"z")), .all []]),
    .test (.membership "raw" "Owner.Id" true [.int 1, .text "2\", \"3"])]

/-- `forged` with a text where there was a number. -/
def retold : Clause :=
  .all [.any [], .raw "x\"\n  or",
    .not (.any [.test (.compare "and" "Name" .eq (.text "y\"\n    raw \"z")), .all []]),
    .test (.membership "raw" "Owner.Id" true [.text "1", .text "2\", \"3"])]

/-- `forged` with the last child of the junction below `not` one level higher. -/
def lifted : Clause :=
  .all [.any [], .raw "x\"\n  or",
    .not (.any [.test (.compare "and" "Name" .eq (.text "y\"\n    raw \"z"))]), .all [],
    .test (.membership "raw" "Owner.Id" true [.int 1, .text "2\", \"3"])]

theorem outline_eq_iff_untyped_eq_forged :
    (forged.IsNamed ∧ partsAt '\n' forged.outline = ["and", "  or", "  raw \"x\\\"\\n  or\"",
        "  not", "    or", "      and[Name] eq \"y\\\"\\n    raw \\\"z\"", "      and",
        "  raw[Owner.Id] nin [\"1\", \"2\\\", \\\"3\"]", ""]) ∧
      (retold.IsNamed ∧ forged.outline = retold.outline) ∧
      lifted.IsNamed ∧ forged.outline ≠ lifted.outline := by
  have named : forged.IsNamed := by decide
  have named' : retold.IsNamed := by decide
  have named'' : lifted.IsNamed := by decide
  obtain ⟨lines, tells⟩ := outline_eq_iff_untyped_eq named
  refine ⟨⟨named, lines.trans (by decide)⟩, ⟨named', (tells retold named').2 rfl⟩, named'', ?_⟩
  intro same
  have trees := (tells lifted named'').1 same
  injection trees with children
  cases (List.cons.inj (List.cons.inj children).2).2

end Clause

end FilterQuery

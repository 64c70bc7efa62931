import FilterQuery.CommandLine.Report
import FilterQuery.Proofs.Model.Registered
import FilterQuery.Proofs.Query.Keys
import FilterQuery.Proofs.Result
import FilterQuery.Text.Basic
import Mathlib

/-!
# The two commands about a query

`compile` and `explain` follow the same arguments on two paths: `explain` reads and
normalizes the filter by itself before it builds the query. Main statement: both succeed
for the same arguments and print the same text, and the tree and the directives that
`explain` prints are those of the query with that text.
-/

namespace FilterQuery.CommandLine

/-! ## Lines -/

/-- A character that is neither a blank nor a line break. -/
def isInk (c : Char) : Bool :=
  !(c = ' ' || c = '\n' || c = '\r')

/-- What is left of a text without blanks and line breaks. -/
def ink (s : String) : List Char :=
  s.toList.filter isInk

variable {s line : String} {ls : List String}

@[simp]
theorem ink_append (s t : String) : ink (s ++ t) = ink s ++ ink t := by
  rw [ink, String.toList_append, List.filter_append]
  rfl

@[simp]
theorem ink_join (ls : List String) : ink (String.join ls) = ls.flatMap ink := by
  rw [ink, String.toList_join, List.filter_flatMap]
  rfl

theorem ink_withoutReturn (line : String) : ink (withoutReturn line) = ink line := by
  rw [withoutReturn]
  split
  · next last =>
    have parts := List.dropLast_append_getLast? _ last
    rw [ink, ink, ← parts, List.filter_append, String.toList_ofList, List.dropLast_concat]
    exact (List.append_nil _).symm
  · rw [String.ofList_toList]

/-- Splitting a text loses no ink. -/
theorem flatMap_ink_partsAt (s : String) : (partsAt '\n' s).flatMap ink = ink s := by
  have joined : ∀ parts : List String, ink ("\n".intercalate parts) = parts.flatMap ink := by
    intro parts
    induction parts with
    | nil => rfl
    | cons part parts ih =>
      cases parts with
      | nil => simp
      | cons next parts =>
        rw [String.intercalate_cons_cons, ink_append, ink_append, ih]
        simp [ink, isInk]
  rw [← joined]
  exact congrArg ink (intercalate_partsAt '\n' s)

theorem lines_append (line s : String) :
    lines (line ++ "\n" ++ s) = (partsAt '\n' line).map withoutReturn ++ lines s := by
  have later : partsAt '\n' s ≠ [] := by simp [partsAt]
  rw [lines, partsAt_append rfl, List.dropLast_append_of_ne_nil later, List.map_append]
  rfl

theorem ink_indented (ls : List String) : ink (indented ls) = ls.flatMap ink := by
  have blank : ink "  " = [] := by decide
  have feed : ink "\n" = [] := by decide
  rw [indented, ink_join, List.flatMap_map]
  simp only [ink_append, blank, feed, List.nil_append, List.append_nil]

/-- Indenting the lines of a text changes only blanks and line breaks. -/
theorem ink_indented_lines (ls : List String) :
    ink (indented (lines (String.join (ls.map (· ++ "\n"))))) = ls.flatMap ink := by
  rw [ink_indented]
  induction ls with
  | nil => rfl
  | cons line ls ih =>
    rw [List.map_cons, String.join_cons, lines_append, List.flatMap_append, ih, List.flatMap_map]
    simp only [ink_withoutReturn, flatMap_ink_partsAt, List.flatMap_cons]

/-- No clause looks as if there were none. -/
theorem indented_lines_outline_ne (c : Clause) :
    indented (lines c.outline) ≠ indented ["(no filter)"] := by
  intro same
  have same := congrArg ink same
  rw [Clause.outline, ink_indented_lines, ink_indented] at same
  have blank : ink (Clause.indent 0) = [] := by decide
  have absent : ["(no filter)"].flatMap ink = "(nofilter)".toList := by decide
  rw [absent] at same
  cases c with
  | all nodes =>
    have word : ink "and" = ['a', 'n', 'd'] := by decide
    simp [Clause.outlineLines, blank, word] at same
  | any nodes =>
    have word : ink "or" = ['o', 'r'] := by decide
    simp [Clause.outlineLines, blank, word] at same
  | not node =>
    have word : ink "not" = ['n', 'o', 't'] := by decide
    simp [Clause.outlineLines, blank, word] at same
  | raw fragment =>
    have word : ink "raw " = ['r', 'a', 'w'] := by decide
    simp [Clause.outlineLines, blank, word] at same
  | test t =>
    -- the key may be any text, but a bracket follows it
    have bracket : '[' ∈ (Clause.outlineLines 0 (.test t)).flatMap ink := by
      have here : ink "[" = ['['] := by decide
      simp [Clause.outlineLines, Condition.summary, here]
    rw [same] at bracket
    exact absurd bracket (by decide)

/-! ## Trees of descriptors -/

/-- A condition tree belongs to a descriptor: that there is no filter is said just if the
text of the descriptor has no condition, and a clause is shown just if it is the condition
of the text. -/
structure ShowsTree (s : Select) (tree : String) : Prop where
  absent_iff : tree = "Condition Tree:\n  (no filter)\n" ↔ s.whereText = ""
  shown : ∀ c, s.filter = some c →
    tree = "Condition Tree:\n" ++ indented (lines c.outline) ∧ s.whereText = " WHERE " ++ c.soql

theorem showsTree_treePart (s : Select) : ShowsTree s (treePart s.filter) := by
  have none_eq : treePart none = "Condition Tree:\n  (no filter)\n" := by decide
  cases filter : s.filter with
  | none =>
    refine ⟨?_, fun c given => absurd (filter.symm.trans given) nofun⟩
    rw [none_eq, Select.whereText, filter]
    exact iff_of_true rfl rfl
  | some c =>
    have condition : s.whereText = " WHERE " ++ c.soql := by rw [Select.whereText, filter]
    refine ⟨iff_of_false ?_ ?_, ?_⟩
    · rw [← none_eq]
      intro same
      exact indented_lines_outline_ne c ((String.append_right_inj _).1 same)
    · rw [condition]
      intro empty
      simpa using congrArg String.length empty
    · intro c' given
      obtain rfl := Option.some.inj (filter.symm.trans given)
      exact ⟨rfl, condition⟩

/-! ## Queries of arguments -/

variable {args : QueryArguments} {models : Outcome Registry} {q : Query} {text : String}

/-- A descriptor has the condition tree of the normalized filter. -/
theorem exists_normalized_of_build_eq_ok {s : Select} (built : q.build = .ok s) :
    ∃ n, q.normalized = .ok n ∧ n.clause = s.filter := by
  have rest : ∃ n, q.normalized = .ok n ∧
      Except.ok { q.descriptor with filter := n.clause } = Except.ok (ε := UnknownField) s := by
    unfold Query.build at built
    split at built
    · obtain ⟨_, _, admitted⟩ := bind_eq_ok_iff.1 built
      exact bind_eq_ok_iff.1 admitted
    · exact bind_eq_ok_iff.1 built
  obtain ⟨n, normalized, described⟩ := rest
  cases described
  exact ⟨n, normalized, rfl⟩

theorem queryText_eq_ok_iff :
    queryText q = .ok text ↔ ∃ s, q.build = .ok s ∧ s.text = .ok text := by
  simp [queryText, bind_eq_ok_iff, mapError_eq_ok_iff]

theorem prepare_eq_ok_iff :
    args.prepare models = .ok q ↔ ∃ r m f, models = .ok r ∧ r.get? args.model = some m ∧
      args.parseFilter = .ok f ∧ q = args.query m f := by
  rw [QueryArguments.prepare, bind_eq_ok_iff]
  simp only [mapError_eq_ok_iff]
  constructor
  · rintro ⟨r, loaded, rest⟩
    cases found : r.get? args.model with
    | none =>
      rw [found] at rest
      cases rest
    | some m =>
      rw [found] at rest
      obtain ⟨f, parsed, described⟩ := bind_eq_ok_iff.1 rest
      cases described
      exact ⟨r, m, f, loaded, found, parsed, rfl⟩
  · rintro ⟨r, m, f, loaded, found, parsed, rfl⟩
    refine ⟨r, loaded, ?_⟩
    rw [found, parsed]
    rfl

/-- Reading the filter once more gives what the query normalizes. -/
theorem normalized_of_prepare_eq_ok (prepared : args.prepare models = .ok q) :
    args.normalized q.model = q.normalized.mapError fun e => .error (.unknownField e) := by
  obtain ⟨r, m, f, _, _, parsed, rfl⟩ := prepare_eq_ok_iff.1 prepared
  rw [QueryArguments.normalized, parsed]
  cases f <;> rfl

/-! ## Reports -/

theorem compile_eq (prepared : args.prepare models = .ok q) (written : queryText q = .ok text) :
    compile args models = { code := 0, stdout := text ++ "\n" } := by
  simp only [compile, prepared, written]

theorem explain_eq {n : Normalized} (prepared : args.prepare models = .ok q)
    (normalized : q.normalized = .ok n) (written : queryText q = .ok text) :
    explain args models = { code := 0, stdout := explanation q.model n ++ indented [text] } := by
  have again := normalized_of_prepare_eq_ok prepared
  rw [normalized, mapError_ok] at again
  simp only [explain, prepared, again, written]

theorem exists_of_code_compile_eq_zero (h : (compile args models).code = 0) :
    ∃ q text, args.prepare models = .ok q ∧ queryText q = .ok text := by
  unfold compile at h
  split at h
  · cases h
  · next q prepared =>
    split at h
    · cases h
    · next text written => exact ⟨q, text, prepared, written⟩

theorem exists_of_code_explain_eq_zero (h : (explain args models).code = 0) :
    ∃ q text, args.prepare models = .ok q ∧ queryText q = .ok text := by
  unfold explain at h
  split at h
  · cases h
  · next q prepared =>
    split at h
    · cases h
    · dsimp only at h
      split at h
      · cases h
      · next text written => exact ⟨q, text, prepared, written⟩

/-- There is only one language to write a descriptor in. -/
theorem eq_soql_of_text_eq_ok {s : Select} (written : s.text = .ok text) : text = s.soql := by
  unfold Select.text Select.textIn at written
  split at written
  · cases written
    rfl
  · cases written

/-- What the two commands print about one query. -/
theorem exists_reports_eq (prepared : args.prepare models = .ok q)
    (written : queryText q = .ok text) :
    ∃ s n, q.build = .ok s ∧ q.normalized = .ok n ∧ n.clause = s.filter ∧ s.text = .ok text ∧
      compile args models = { code := 0, stdout := text ++ "\n" } ∧
      explain args models =
        { code := 0, stdout := explanation q.model n ++ indented [text] } := by
  obtain ⟨s, built, text⟩ := queryText_eq_ok_iff.1 written
  obtain ⟨n, normalized, clause⟩ := exists_normalized_of_build_eq_ok built
  exact ⟨s, n, built, normalized, clause, text, compile_eq prepared written,
    explain_eq prepared normalized written⟩

theorem code_explain_eq_zero_iff :
    (explain args models).code = 0 ↔ (compile args models).code = 0 := by
  constructor
  · intro h
    obtain ⟨q, text, prepared, written⟩ := exists_of_code_explain_eq_zero h
    rw [compile_eq prepared written]
  · intro h
    obtain ⟨q, text, prepared, written⟩ := exists_of_code_compile_eq_zero h
    obtain ⟨s, n, _, _, _, _, _, explained⟩ := exists_reports_eq prepared written
    rw [explained]

/-- The two commands agree on every file of models and all arguments. `explain` succeeds
just if `compile` does. Then both print the text of the same query, and the condition tree
and the directives that `explain` prints are those of the filter of this query as it was
normalized for the text: it says that there is no filter just if the text has no condition,
and else shows the clause whose text is the condition. -/
theorem explain_agrees (read : String → Except String String) (file : Option String)
    (args : QueryArguments) :
    let compiled := (Invocation.run (.compile args) file).report read
    let explained := (Invocation.run (.explain args) file).report read
    (explained.code = 0 ↔ compiled.code = 0) ∧
      (explained.code = 0 → ∃ q s n, args.prepare (loadModels read file) = .ok q ∧
        q.build = .ok s ∧ q.normalized = .ok n ∧ n.clause = s.filter ∧
        compiled.stdout = s.soql ++ "\n" ∧
        explained.stdout = "Query Explanation\n\n" ++
          indented ["Model: " ++ q.model.name ++ " (" ++ q.model.object ++ ")",
            "Provider: " ++ q.model.provider.name] ++ "\n" ++ treePart n.clause ++
          directivesPart n.directives ++ "\nGenerated Query:\n" ++ indented [s.soql] ∧
        ShowsTree s (treePart n.clause)) := by
  refine ⟨code_explain_eq_zero_iff, fun h => ?_⟩
  obtain ⟨q, text, prepared, written⟩ := exists_of_code_explain_eq_zero h
  obtain ⟨s, n, built, normalized, clause, written, compiled, explained⟩ :=
    exists_reports_eq prepared written
  obtain rfl := eq_soql_of_text_eq_ok written
  refine ⟨q, s, n, prepared, built, normalized, clause, ?_, ?_, ?_⟩
  · exact congrArg Report.stdout compiled
  · exact congrArg Report.stdout explained
  · rw [clause]
    exact showsTree_treePart s

/-- A file with a model of deals. -/
def dealsText : String :=
  "[[models]]\nname='Deal'\nobject='Opportunity'\nprovider='salesforce'\n" ++
    "fields=[\x7bkey='stage',path='StageName'\x7d]"

/-- The model in `dealsText`. -/
def stagedDeals : Model where
  name := "Deal"
  object := "Opportunity"
  provider := .salesforce
  fields := [⟨"stage", "StageName"⟩]
  distinct := by decide

/-- Asks for deals under a filter. -/
def dealsWhere (filter : String) : QueryArguments where
  model := "Deal"
  filter := some filter

theorem prepare_dealsWhere {filter : String} {f : Filter}
    (parsed : (dealsWhere filter).parseFilter = .ok (some f)) :
    (dealsWhere filter).prepare (loadModels (fun _ => .ok dealsText) (some "models.toml")) =
      .ok ((dealsWhere filter).query stagedDeals (some f)) := by
  have config : Config.ofToml? dealsText = some {
      models := [⟨"Deal", "Opportunity", .salesforce,
        [⟨"stage", "StageName", none, none, none⟩], []⟩] } := by cbv
  refine prepare_eq_ok_iff.2 ⟨Registry.empty.register stagedDeals, _, _, ?_, ?_, parsed, rfl⟩
  · simp only [loadModels, Config.load, config]
    rfl
  · rw [Registry.get?_register]
    exact if_pos rfl

/-- A membership test in batches. -/
def batchedDeals : QueryArguments :=
  dealsWhere "\x7b\"stage\":\x7b\"$in\":[1],\"$chunk\":\x7b\x7d\x7d\x7d"

/-- A filter of which nothing is left. -/
def anyDeals : QueryArguments :=
  dealsWhere "\x7b\"$or\":[]\x7d"

set_option maxRecDepth 2000 in
theorem explain_agrees_deals :
    let report := fun (command : Command) =>
      (Invocation.run command (some "models.toml")).report fun _ => .ok dealsText
    ((report (.compile batchedDeals)).stdout =
        "SELECT StageName FROM Opportunity WHERE StageName IN (1)\n" ∧
      (report (.explain batchedDeals)).stdout =
        "Query Explanation\n\n  Model: Deal (Opportunity)\n  Provider: salesforce\n\n" ++
          "Condition Tree:\n  stage[StageName] in [\"1\"]\n\n" ++
          "Chunks:\n  StageName in 1 value(s) in 1 batch(es)\n\n" ++
          "Generated Query:\n  SELECT StageName FROM Opportunity WHERE StageName IN (1)\n") ∧
      (report (.explain anyDeals)).stdout =
        "Query Explanation\n\n  Model: Deal (Opportunity)\n  Provider: salesforce\n\n" ++
          "Condition Tree:\n  (no filter)\n\n" ++
          "Generated Query:\n  SELECT StageName FROM Opportunity\n" := by
  intro report
  have agrees := explain_agrees (fun _ => .ok dealsText) (some "models.toml")
  refine ⟨?_, ?_⟩
  · have parsed : batchedDeals.parseFilter =
        .ok (some [.field "stage" (.ops [.isIn ⟨[.int 1], some {}⟩])]) := by cbv
    have prepared := prepare_dealsWhere parsed
    obtain ⟨agree, printed⟩ := agrees batchedDeals
    obtain ⟨_, _, _, same, built, normalized, _, compiled, explained, _⟩ :=
      printed (agree.2 (congrArg Report.code (compile_eq prepared rfl)))
    cases prepared.symm.trans same
    cases built
    cases normalized
    refine ⟨compiled.trans ?_, explained.trans ?_⟩
    · rfl
    · rfl
  · have parsed : anyDeals.parseFilter = .ok (some [.any []]) := by cbv
    have prepared := prepare_dealsWhere parsed
    obtain ⟨agree, printed⟩ := agrees anyDeals
    obtain ⟨_, _, _, same, built, normalized, _, _, explained, _⟩ :=
      printed (agree.2 (congrArg Report.code (compile_eq prepared rfl)))
    cases prepared.symm.trans same
    cases built
    cases normalized
    exact explained.trans rfl

end FilterQuery.CommandLine

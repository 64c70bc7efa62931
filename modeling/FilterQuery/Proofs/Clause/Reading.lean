import FilterQuery.Proofs.Clause.Shape
import FilterQuery.Proofs.Text.Boundary

/-!
# The reading of a condition tree

What the text of a tree says, without what it does not say: a value is its text
and whether that is quoted, logical keys are gone, a range is two comparisons, a
test for null is a comparison with null, a pattern has its wildcard, and a
junction of one child says no word of joining. A reading has a text of its own.
Main statement: the text of a tree is the text of its reading.
-/

namespace FilterQuery

/-- A value as it stands in a query: its text, and whether it is quoted. -/
structure Token where
  text : String
  isQuoted : Bool
deriving DecidableEq, Repr

/-- The characters of a value. -/
def Token.chars (t : Token) : List Char :=
  if t.isQuoted then (Literal.quote t.text).toList else t.text.toList

/-- How a field is compared with one value. -/
inductive Comparison
  | eq | ne | gt | gte | lt | lte | like
deriving DecidableEq, Repr

/-- The sign of a comparison. -/
def Comparison.sign : Comparison → String
  | eq => "="
  | ne => "!="
  | gt => ">"
  | gte => ">="
  | lt => "<"
  | lte => "<="
  | like => "LIKE"

/-- What the text of a tree says. -/
inductive Reading
  | compare (path : String) (comparison : Comparison) (value : Token)
  | member (path : String) (negated : Bool) (values : List Token)
  /-- A junction of one child, which may be either junction. -/
  | single (node : Reading)
  | join (j : Junction) (first second : Reading) (others : List Reading)
  | not (node : Reading)
  | raw (fragment : String)

/-! ## From trees to readings -/

/-- A value with its quotes. -/
def Value.token (v : Value) : Token :=
  ⟨v.plain, v.isQuoted⟩

namespace Operand

/-- One value; what does not fit reads as null. -/
def singleToken : Operand → Token
  | .value v => v.token
  | _ => Value.null.token

/-- A pattern, which is always quoted. -/
def patternToken (before after : String) : Operand → Token
  | .value v => ⟨before ++ v.plain ++ after, true⟩
  | _ => Value.null.token

/-- The two bounds of a range. -/
def boundTokens : Operand → Token × Token
  | .range low high => (low.token, high.token)
  | _ => (Value.null.token, Value.null.token)

end Operand

/-- The reading of a condition. -/
def Condition.reading (c : Condition) : Reading :=
  match c.op with
  | .eq => .compare c.path .eq c.operand.singleToken
  | .ne => .compare c.path .ne c.operand.singleToken
  | .gt => .compare c.path .gt c.operand.singleToken
  | .gte => .compare c.path .gte c.operand.singleToken
  | .lt => .compare c.path .lt c.operand.singleToken
  | .lte => .compare c.path .lte c.operand.singleToken
  | .like => .compare c.path .like (c.operand.patternToken "" "")
  | .startsWith => .compare c.path .like (c.operand.patternToken "" "%")
  | .endsWith => .compare c.path .like (c.operand.patternToken "%" "")
  | .between =>
      .join .conjunction (.compare c.path .gte c.operand.boundTokens.1)
        (.compare c.path .lte c.operand.boundTokens.2) []
  | .isNull => .compare c.path .eq Value.null.token
  | .isNotNull => .compare c.path .ne Value.null.token
  | .isIn => .member c.path false (c.operand.members.map Value.token)
  | .notIn => .member c.path true (c.operand.members.map Value.token)

/-- The reading of a junction. Without children there is nothing to read but the
parentheses. -/
def Reading.ofNodes (j : Junction) : List Reading → Reading
  | [] => .raw "()"
  | [n] => .single n
  | first :: second :: others => .join j first second others

namespace Clause

mutual

/-- The reading of a tree. -/
@[simp] def reading : Clause → Reading
  | .all nodes => .ofNodes .conjunction (readings nodes)
  | .any nodes => .ofNodes .disjunction (readings nodes)
  | .not node => .not (reading node)
  | .raw fragment => .raw fragment
  | .test c => c.reading

/-- The readings of several trees. -/
def readings : List Clause → List Reading
  | [] => []
  | c :: cs => reading c :: readings cs

end

@[simp, grind =]
theorem readings_eq_map (cs : List Clause) : readings cs = cs.map reading := by
  induction cs with
  | nil => rfl
  | cons c cs ih => rw [readings, ih, List.map_cons]

end Clause

/-! ## The text of a reading -/

namespace Reading

/-- The characters of a list of values. -/
def listChars : List Token → List Char
  | [] => ['(', ')']
  | t :: ts => '(' :: (t.chars ++ (ts.flatMap (fun u => ',' :: ([' '] ++ u.chars)) ++ [')']))

/-- The characters of a membership test after the path. -/
def memberChars (negated : Bool) (ts : List Token) : List Char :=
  if negated then "NOT".toList ++ ' ' :: ("IN".toList ++ ' ' :: listChars ts)
  else "IN".toList ++ ' ' :: listChars ts

/-- The word of a junction and the blank after it; another blank stands in front. -/
def wordChars (j : Junction) : List Char :=
  j.keyword.toList ++ [' ']

mutual

/-- The characters of a reading. -/
@[simp] def chars : Reading → List Char
  | .compare path r t => path.toList ++ ' ' :: (r.sign.toList ++ ' ' :: t.chars)
  | .member path negated ts => path.toList ++ ' ' :: memberChars negated ts
  | .single node => '(' :: (chars node ++ [')'])
  | .join j first second others =>
      '(' :: (chars first ++ (' ' :: (wordChars j ++ chars second) ++
        (othersChars j others ++ [')'])))
  | .not node => '(' :: ("NOT".toList ++ ' ' :: (chars node ++ [')']))
  | .raw fragment => fragment.toList

/-- The characters of readings that each follow the word of a junction. -/
def othersChars (j : Junction) : List Reading → List Char
  | [] => []
  | n :: ns => ' ' :: (wordChars j ++ chars n) ++ othersChars j ns

end

@[simp, grind =]
theorem othersChars_eq_flatMap (j : Junction) (ns : List Reading) :
    othersChars j ns = ns.flatMap fun n => ' ' :: (wordChars j ++ n.chars) := by
  induction ns with
  | nil => rfl
  | cons n ns ih => rw [othersChars, ih, List.flatMap_cons]

end Reading

/-! ## The text of a tree -/

@[simp]
theorem Value.toList_written (v : Value) : v.written.toList = v.token.chars := by
  unfold Value.written Token.chars Value.token
  split <;> rfl

@[simp]
theorem Operand.toList_single (o : Operand) : o.single.toList = o.singleToken.chars := by
  cases o with
  | value v => exact v.toList_written
  | none | list | range => rfl

@[simp]
theorem Operand.toList_pattern (o : Operand) (before after : String) :
    (o.pattern before after).toList = (o.patternToken before after).chars := by
  cases o with
  | value v => rfl
  | none | list | range => rfl

theorem Operand.toList_bounds (o : Operand) :
    o.bounds.1.toList = o.boundTokens.1.chars ∧ o.bounds.2.toList = o.boundTokens.2.chars := by
  cases o with
  | range low high => exact ⟨low.toList_written, high.toList_written⟩
  | none | value | list => exact ⟨rfl, rfl⟩

@[simp]
theorem Operand.toList_listText (o : Operand) :
    o.listText.toList = Reading.listChars (o.members.map Value.token) := by
  unfold Operand.listText
  cases o.members with
  | nil => rfl
  | cons v vs =>
    simp [Reading.listChars, List.flatMap_map]

@[simp]
theorem Condition.toList_soql (c : Condition) : c.soql.toList = c.reading.chars := by
  obtain ⟨key, path, op, operand⟩ := c
  obtain ⟨low, high⟩ := operand.toList_bounds
  cases op with
  | eq | ne | gt | gte | lt | lte | like | startsWith | endsWith =>
    simp [soql, reading, Comparison.sign]
  | between =>
    simp [soql, reading, Reading.wordChars, Junction.keyword, Comparison.sign, low, high]
  | isNull | isNotNull =>
    simp only [soql, reading, Reading.chars, String.toList_append]
    rfl
  | isIn | notIn =>
    simp [soql, reading, Reading.memberChars]

namespace Clause

theorem toList_joined (j : Junction) (nodes : List Clause)
    (h : ∀ c ∈ nodes, c.soql.toList = c.reading.chars) :
    (joined j (soqls nodes)).toList = (Reading.ofNodes j (readings nodes)).chars := by
  rw [soqls_eq_map, readings_eq_map, joined]
  match nodes, h with
  | [], _ => rfl
  | [c], h =>
    simp [Reading.ofNodes, h c (by simp)]
  | c :: d :: rest, h =>
    have others : rest.map (String.toList ∘ soql) = rest.map (Reading.chars ∘ reading) :=
      List.map_congr_left fun e he => h e (by simp [he])
    simp [Reading.ofNodes, Reading.wordChars, h c (by simp), h d (by simp), others,
      List.flatMap_map]

/-- The text of a tree is the text of its reading. -/
@[simp]
theorem toList_soql (c : Clause) : c.soql.toList = c.reading.chars := by
  induction c with
  | all nodes ih => exact toList_joined .conjunction nodes ih
  | any nodes ih => exact toList_joined .disjunction nodes ih
  | not node ih =>
    simp [soql, ih]
  | raw fragment => rfl
  | test c => exact c.toList_soql

end Clause

end FilterQuery

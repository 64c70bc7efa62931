import FilterQuery.Clause.Soql
import FilterQuery.Select.Basic

/-!
# Select descriptors in the query language

The text of a descriptor in SOQL, clause by clause. A key that the model does not
declare stands for itself, and a limit or offset of zero is left out.
-/

namespace FilterQuery

/-- Why a query cannot be written in a query language. -/
structure Unsupported where
  dialect : Dialect
  feature : String
deriving DecidableEq, Repr

def Unsupported.message (e : Unsupported) : String :=
  e.dialect.name ++ " dialect does not support " ++ e.feature

namespace Select

/-- What is asked for when there is nothing else to ask for. -/
def defaultProjection : String := "Id"

/-- The paths that are asked for. -/
def projection (q : Select) : List String :=
  match q.projectedKeys.map q.model.pathFor with
  | [] => [defaultProjection]
  | paths => paths

/-- The condition, after its keyword. -/
def whereText (q : Select) : String :=
  match q.filter with
  | some c => " WHERE " ++ c.soql
  | none => ""

/-- The path of one key of the order, and its direction. -/
def sortKeyText (q : Select) (o : SortKey) : String :=
  q.model.pathFor o.field ++ " " ++ o.direction.keyword

/-- The order, after its keywords. -/
def orderText (q : Select) : String :=
  match q.orderBy with
  | [] => ""
  | os => " ORDER BY " ++ ", ".intercalate (os.map q.sortKeyText)

/-- A count after its keyword, if it is positive. -/
def countText (keyword : String) : Option UInt64 → String
  | some n => if n.toNat = 0 then "" else keyword ++ toString n.toNat
  | none => ""

/-- The text in SOQL. -/
def soql (q : Select) : String :=
  "SELECT " ++ ", ".intercalate q.projection ++ " FROM " ++ q.model.object ++
    q.whereText ++ q.orderText ++ countText " LIMIT " q.limit ++ countText " OFFSET " q.offset

/-- The text in a query language. -/
def textIn (q : Select) : Dialect → Except Unsupported String
  | .salesforce => .ok q.soql
  | .hubspot => .error ⟨.hubspot, "select queries"⟩

/-- The text in the query language of the model's provider. -/
def text (q : Select) : Except Unsupported String :=
  q.textIn q.model.provider.dialect

end Select

end FilterQuery

import FilterQuery.Filter.Basic
import FilterQuery.Model.Basic

/-!
# Chunk directives

A membership test over a long list may ask to be run in batches. Such a request
is no part of the condition tree; it is collected beside it, one directive for
each marked test with a list that is not empty, on a field that the model
declares.
-/

namespace FilterQuery

/-- A membership test that is to be run in batches. -/
structure Directive where
  path : String
  /-- The test is negated. -/
  negated : Bool
  values : List Value
  chunking : Chunking

namespace Directive

/-- The list cut into pieces of `size` elements; the last may be shorter. `fuel`
bounds the pieces, and the length of the list is enough. -/
def pieces {α : Type} (size : Nat) : Nat → List α → List (List α)
  | 0, _ => []
  | _, [] => []
  | fuel + 1, vs => vs.take size :: pieces size fuel (vs.drop size)

/-- The values in batches of the size asked for; without one, or with size zero,
there is one batch. -/
def batches (d : Directive) : List (List Value) :=
  match d.chunking.size with
  | some size =>
      if size.toNat = 0 then [d.values] else pieces size.toNat d.values.length d.values
  | none => [d.values]

end Directive

/-- The directive of a marked test on the path `path`. -/
def Membership.directives (path : String) (negated : Bool) (m : Membership) : List Directive :=
  match m.chunking with
  | some c => if m.values.isEmpty then [] else [⟨path, negated, m.values, c⟩]
  | none => []

/-- The directives of an operator. -/
def FieldOp.directives (path : String) : FieldOp → List Directive
  | .isIn m => m.directives path false
  | .notIn m => m.directives path true
  | _ => []

/-- The directives of a test. -/
def FieldTest.directives (path : String) : FieldTest → List Directive
  | .ops list => list.flatMap (FieldOp.directives path)
  | _ => []

mutual

/-- The directives of an entry, from left to right. -/
@[simp] def Entry.directives (m : Model) : Entry → List Directive
  | .all filters => Filter.directivesAll m filters
  | .any filters => Filter.directivesAll m filters
  | .not filter => Filter.directives m filter
  | .raw _ => []
  | .field key test =>
      match m.pathFor? key with
      | some path => test.directives path
      | none => []

/-- The directives of a filter. -/
def Filter.directives (m : Model) : Filter → List Directive
  | [] => []
  | e :: es => Entry.directives m e ++ Filter.directives m es

/-- The directives of filters that stand side by side. -/
def Filter.directivesAll (m : Model) : List Filter → List Directive
  | [] => []
  | f :: fs => Filter.directives m f ++ Filter.directivesAll m fs

end

end FilterQuery

/-!
# TOML documents

The tree that a TOML document builds statement by statement. A table remembers
how it came to be, because that decides how it may be extended: a table that a
header names is closed to other headers, one that dotted keys made is open to
dotted keys only, and a value is closed to both.
-/

namespace FilterQuery

/-- How a table came to be. -/
inductive TableOrigin
  /-- A header names it, or braces enclose it. -/
  | named
  /-- It lies on the way to a table that a header names. -/
  | passed
  /-- Dotted keys made it. -/
  | dotted
deriving DecidableEq, Repr

/-- A TOML value, or a part of the tree of a document. -/
inductive Toml
  | string (s : String)
  | integer (n : Int)
  | float
  | boolean (b : Bool)
  | dateTime
  | array (items : List Toml)
  /-- A table between braces. -/
  | inline (origin : TableOrigin) (entries : List (String × Toml))
  | table (origin : TableOrigin) (entries : List (String × Toml))
  /-- Tables that headers in double brackets add one by one. -/
  | tables (items : List (TableOrigin × List (String × Toml)))

/-- The entries of a table, in the order in which they were made. -/
abbrev TomlEntries := List (String × Toml)

namespace TomlEntries

/-- Sets an entry, in its place if it is there. -/
def set (key : String) (v : Toml) : TomlEntries → TomlEntries
  | [] => [(key, v)]
  | (k, old) :: rest => if k = key then (k, v) :: rest else (k, old) :: set key v rest

/-- Adds an entry that must not be there yet. -/
def add? (key : String) (v : Toml) (es : TomlEntries) : Option TomlEntries :=
  match es.lookup key with
  | none => some (es ++ [(key, v)])
  | some _ => none

end TomlEntries

/-- A change to a table, given how it came to be; `none` where the document breaks
the rules. -/
abbrev TableChange := TableOrigin → TomlEntries → Option TomlEntries

namespace Toml

/-- Makes a change in the table that `path` leads to, starting below the table
with these entries. Tables that are missing on the way are made, with the given
origin. Dotted keys do not pass through a table that a header names. -/
def changeAt (made : TableOrigin) (change : TableChange) :
    List String → TableOrigin → TomlEntries → Option TomlEntries
  | [], origin, es => change origin es
  | key :: path, _, es =>
      match es.lookup key with
      | none => do
          let inner ← changeAt made change path made []
          return es ++ [(key, table made inner)]
      | some (table origin inner) =>
          if made = .dotted ∧ origin = .named then none
          else do
            let inner ← changeAt made change path origin inner
            return TomlEntries.set key (table origin inner) es
      | some (tables items) =>
          match items.getLast? with
          | none => none
          | some (origin, inner) => do
              let inner ← changeAt made change path origin inner
              return TomlEntries.set key (tables (items.dropLast ++ [(origin, inner)])) es
      | some _ => none

/-- The same among the entries of a table between braces. -/
def changeInline (change : TableChange) :
    List String → TableOrigin → TomlEntries → Option TomlEntries
  | [], origin, es => change origin es
  | key :: path, _, es =>
      match es.lookup key with
      | none => do
          let inner ← changeInline change path .dotted []
          return es ++ [(key, inline .dotted inner)]
      | some (inline origin inner) =>
          if origin = .named then none
          else do
            let inner ← changeInline change path origin inner
            return TomlEntries.set key (inline origin inner) es
      | some _ => none

/-- Adds a value under the last part of a dotted key. A key with dots adds to a
table that dotted keys made, a plain key to any other. -/
def assign (isDotted : Bool) (key : String) (v : Toml) : TableChange := fun origin es =>
  if decide (origin = .dotted) = isDotted then TomlEntries.add? key v es else none

/-- Names a table by a header. -/
def openTable (key : String) : TableChange := fun _ es =>
  match es.lookup key with
  | none => some (es ++ [(key, table .named [])])
  | some (table .passed inner) => some (TomlEntries.set key (table .named inner) es)
  | some _ => none

/-- Adds a table by a header in double brackets. -/
def addTable (key : String) : TableChange := fun _ es =>
  match es.lookup key with
  | none => some (es ++ [(key, tables [(.named, [])])])
  | some (tables items) =>
      some (TomlEntries.set key (tables (items ++ [(.named, [])])) es)
  | some _ => none

end Toml

/-- A dotted key: the parts before the last, and the last. -/
structure TomlKey where
  path : List String
  last : String

/-- A statement of a document. -/
inductive TomlStatement
  | header (key : TomlKey)
  | arrayHeader (key : TomlKey)
  | assignment (key : TomlKey) (value : Toml)

/-- A document while it is read: its tree, and the table that assignments go to. -/
structure TomlDocument where
  entries : TomlEntries := []
  current : List String := []

namespace TomlDocument

/-- Carries out one statement. -/
def step (d : TomlDocument) : TomlStatement → Option TomlDocument
  | .header k => do
      let es ← Toml.changeAt .passed (Toml.openTable k.last) k.path .named d.entries
      return ⟨es, k.path ++ [k.last]⟩
  | .arrayHeader k => do
      let es ← Toml.changeAt .passed (Toml.addTable k.last) k.path .named d.entries
      return ⟨es, k.path ++ [k.last]⟩
  | .assignment k v => do
      let put : TableChange := fun origin es =>
        Toml.changeAt .dotted (Toml.assign (!k.path.isEmpty) k.last v) k.path origin es
      let es ← Toml.changeAt .passed put d.current .named d.entries
      return { d with entries := es }

end TomlDocument

/-- Adds one assignment to the entries of a table between braces. -/
def TomlEntries.assignInline (k : TomlKey) (v : Toml) (es : TomlEntries) : Option TomlEntries :=
  Toml.changeInline (Toml.assign (!k.path.isEmpty) k.last v) k.path .named es

end FilterQuery

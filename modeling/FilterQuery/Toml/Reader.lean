import FilterQuery.Toml.Scalar

/-!
# Reading TOML

A reader for TOML 1.0 texts: keys, values, statements and whole documents. Every
step returns what it read and the rest of the text; values may nest a limited
number of times.
-/

namespace FilterQuery.Toml.Scalar

/-- A character of a key without quotes. -/
def isBare (c : Char) : Bool :=
  c.isAlphanum || c = '_' || c = '-'

/-- One part of a key. -/
def keyPart? (cs : List Char) : Option (String × List Char) :=
  match cs.span isBare with
  | ([], rest) => lineString? rest
  | (ds, rest) => some (String.ofList ds, rest)

/-- The parts of a key, joined by dots; `acc` is reversed. -/
def keyParts? : Nat → List String → Reader TomlKey
  | 0, _, _ => none
  | fuel + 1, acc, cs => do
      let (part, rest) ← keyPart? (skipGap cs)
      match skipGap rest with
      | '.' :: rest => keyParts? fuel (part :: acc) rest
      | rest => some (⟨acc.reverse, part⟩, rest)

/-- How many parts a key may have. -/
def keyLimit : Nat := 79

/-- A key, with the blanks around it. -/
def key? (cs : List Char) : Option (TomlKey × List Char) :=
  keyParts? keyLimit [] cs

/-- Takes a comment, which runs to the end of its line. -/
def skipComment (cs : List Char) : List Char :=
  match cs with
  | '#' :: rest => rest.dropWhile isText
  | cs => cs

/-- Takes blanks, comments and line breaks, as they may stand in an array. -/
def skipFiller : Nat → List Char → List Char
  | 0, cs => cs
  | fuel + 1, cs =>
      let rest := skipComment (skipGap cs)
      match newline? rest with
      | some more => skipFiller fuel more
      | none => rest

/-- All blanks, comments and line breaks. -/
def filler (cs : List Char) : List Char := skipFiller (cs.length + 1) cs

/-- A date, a float or an integer. -/
def numeric? (cs : List Char) : Option (Toml × List Char) :=
  match dateTime? cs with
  | some r => some r
  | none =>
      match float? cs with
      | some r => some r
      | none => integer? cs

mutual

/-- A value. `depth` is how many more levels may be opened. -/
def value? : Nat → Nat → Reader Toml
  | 0, _, _ => none
  | fuel + 1, depth, cs =>
      match cs with
      | [] => none
      | c :: rest =>
          if c = '"' ∨ c = apostrophe then (string? cs).map fun r => (.string r.1, r.2)
          else if c = '[' then
            match depth with
            | 0 => none
            | depth + 1 => (items? fuel depth [] rest).map fun r => (.array r.1, r.2)
          else if c = '\x7b' then
            match depth with
            | 0 => none
            | depth + 1 =>
                match skipGap rest with
                | '\x7d' :: rest => some (.inline .named [], rest)
                | rest => (pairs? fuel depth [] rest).map fun r => (.inline .named r.1, r.2)
          else if c = 't' ∨ c = 'f' then boolean? cs
          else if c = 'i' ∨ c = 'n' then float? cs
          else numeric? cs

/-- The elements of an array up to its bracket; a comma may follow the last. -/
def items? : Nat → Nat → List Toml → Reader (List Toml)
  | 0, _, _, _ => none
  | fuel + 1, depth, acc, cs =>
      match filler cs with
      | ']' :: rest => some (acc.reverse, rest)
      | cs => do
          let (v, rest) ← value? fuel depth cs
          match filler rest with
          | ',' :: rest => items? fuel depth (v :: acc) rest
          | ']' :: rest => some ((v :: acc).reverse, rest)
          | _ => none

/-- The entries of a table between braces; no comma follows the last. -/
def pairs? : Nat → Nat → TomlEntries → Reader TomlEntries
  | 0, _, _, _ => none
  | fuel + 1, depth, acc, cs => do
      let (k, rest) ← key? cs
      match rest with
      | '=' :: rest => do
          let (v, rest) ← value? fuel depth (skipGap rest)
          let acc ← acc.assignInline k v
          match skipGap rest with
          | ',' :: rest => pairs? fuel depth acc rest
          | '\x7d' :: rest => some (acc, rest)
          | _ => none
      | _ => none

end

/-- How many values may nest. -/
def nestingLimit : Nat := 79

/-- A statement, up to the end of what belongs to it on its line. -/
def statement? (cs : List Char) : Option (TomlStatement × List Char) :=
  match cs with
  | '[' :: '[' :: rest => do
      let (k, rest) ← key? rest
      match rest with
      | ']' :: ']' :: rest => some (.arrayHeader k, rest)
      | _ => none
  | '[' :: rest => do
      let (k, rest) ← key? rest
      match rest with
      | ']' :: rest => some (.header k, rest)
      | _ => none
  | cs => do
      let (k, rest) ← key? cs
      match rest with
      | '=' :: rest => do
          let (v, rest) ← value? (2 * rest.length + 1) nestingLimit (skipGap rest)
          some (.assignment k v, rest)
      | _ => none

/-- Carries out the statements of a text, one to a line. -/
def statements? : Nat → TomlDocument → List Char → Option TomlDocument
  | 0, _, _ => none
  | fuel + 1, d, cs =>
      match filler cs with
      | [] => some d
      | cs => do
          let (s, rest) ← statement? cs
          let d ← d.step s
          match skipComment (skipGap rest) with
          | [] => some d
          | rest => do
              let rest ← newline? rest
              statements? fuel d rest

end FilterQuery.Toml.Scalar

namespace FilterQuery.Toml

/-- The entries of a document. A mark of the byte order may stand in front. -/
def read? (text : String) : Option TomlEntries :=
  let cs := match text.toList with
    | '\ufeff' :: rest => rest
    | cs => cs
  (Scalar.statements? (cs.length + 1) {} cs).map TomlDocument.entries

end FilterQuery.Toml

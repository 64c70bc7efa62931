import FilterQuery.Number.Whole
import FilterQuery.Text.Unprintable

/-!
# Texts between quotes

A literal of the query language stands between single quotes; inside it a
backslash makes the next character literal. Only the quote and the backslash need
that, so every text has one written form. A diagnostic text stands between double
quotes; quotes, backslashes and everything without a glyph are escaped in it, so
that it always stays on one line.
-/

namespace FilterQuery

/-! ## Literals of the query language -/

namespace Literal

/-- The character that opens and closes a literal. -/
def mark : Char := '\x27'

/-- The contents of a literal: quotes and backslashes follow a backslash. -/
def escape : List Char → List Char
  | [] => []
  | c :: cs =>
      if c = '\\' ∨ c = mark then '\\' :: c :: escape cs
      else c :: escape cs

/-- The literal that stands for `s`. -/
def quote (s : String) : String :=
  String.ofList (mark :: (escape s.toList ++ [mark]))

@[simp]
theorem toList_quote (s : String) :
    (quote s).toList = mark :: (escape s.toList ++ [mark]) :=
  String.toList_ofList

end Literal

/-! ## Quoted texts in diagnostics -/

namespace Quoted

/-- A character by its code: `\u` and the hexadecimal code in braces. -/
def byCode (c : Char) : List Char :=
  '\\' :: 'u' :: '\x7b' :: (hexDigits c.toNat ++ ['\x7d'])

/-- One character as it stands between the quotes. -/
def escapeChar (c : Char) : List Char :=
  if c = '"' ∨ c = '\\' then ['\\', c]
  else if c = '\n' then ['\\', 'n']
  else if c = '\r' then ['\\', 'r']
  else if c = '\t' then ['\\', 't']
  else if c = '\x00' then ['\\', '0']
  else if isUnprintable c then byCode c
  else [c]

/-- `s` between double quotes. -/
def quote (s : String) : String :=
  String.ofList ('"' :: (s.toList.flatMap escapeChar ++ ['"']))

end Quoted

end FilterQuery

/-!
# Offsets and positions

A source is a row of characters. Offsets count the bytes of its UTF-8 encoding; a reader
of a message wants the line and the column instead, both counted from 1. Lines end with
a line feed, and columns count characters.
-/

namespace Scriptling

/-- The characters of a text that lie wholly before a byte offset. -/
def takeBytes : (offset : Nat) → List Char → List Char
  | _, [] => []
  | offset, c :: cs =>
    if c.utf8Size ≤ offset then c :: takeBytes (offset - c.utf8Size) cs else []

/-- A line and a column. -/
structure Position where
  /-- the number of the line -/
  line : Nat
  /-- the number of the character in its line -/
  column : Nat
deriving DecidableEq, Repr

namespace Position

/-- The position of a byte offset. Offsets behind the end are at the end. -/
def ofOffset (source : List Char) (offset : Nat) : Position :=
  let before := takeBytes offset source
  { line := before.count '\n' + 1
    column := (before.reverse.takeWhile (· ≠ '\n')).length + 1 }

/-- A position as text, line first. -/
def text (p : Position) : String :=
  p.line.repr ++ ":" ++ p.column.repr

end Position

end Scriptling

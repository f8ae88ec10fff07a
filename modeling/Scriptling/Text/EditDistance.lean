/-!
# Edit distance

The least number of insertions, deletions and substitutions of single characters that
turn one text into another. It is computed in a table with a row for each beginning of the
first text and a column for each beginning of the second one, and the entry is the distance
of the two beginnings. No more than two rows are kept at a time (`Rows`): a row is computed
from the one above it, and then takes its place, while the row above is written over.

Reading or writing at a place that a row does not have ends the computation without a
result (`editDistance?`). That never happens, so that there always is a distance
(`editDistance`).
-/

namespace Scriptling.Text

/-- Two rows of the table. -/
structure Rows where
  /-- the last row that is complete -/
  above : Array Nat
  /-- the next row, as far as it is computed; what is behind is left over -/
  here : Array Nat

namespace Rows

/-- The row with another entry at a place, if it has this place. -/
def put? (row : Array Nat) (j entry : Nat) : Option (Array Nat) :=
  if h : j < row.size then some (row.set j entry h) else none

/-- Computes an entry: `c` is the last character of the beginning of the first text, and
`d`, at place `j`, the one of the beginning of the second text. -/
def fill? (c : Char) : Rows → Char × Nat → Option Rows
  | ⟨above, here⟩, (d, j) => do
    let up ← above[j]?
    let left ← here[j - 1]?
    let diagonal ← above[j - 1]?
    let entry := min (min (up + 1) (left + 1)) (diagonal + if c = d then 0 else 1)
    let here ← put? here j entry
    return ⟨above, here⟩

/-- Computes the next row, for the character `c` at place `i` of the first text. Then the
two rows change places. -/
def next? (b : List Char) : Rows → Char × Nat → Option Rows
  | ⟨above, here⟩, (c, i) => do
    let here ← put? here 0 i
    let ⟨above, here⟩ ← (b.zipIdx 1).foldlM (fill? c) ⟨above, here⟩
    return ⟨here, above⟩

/-- The rows at the start: the first row of the table, and one that is to be computed. -/
def first (n : Nat) : Rows :=
  ⟨Array.range (n + 1), Array.replicate (n + 1) 0⟩

end Rows

/-- The last entry of the table for two texts. Where one of them is empty, no table is
needed. -/
def editDistance? (a b : String) : Option Nat :=
  let (as, bs) := (a.toList, b.toList)
  if as.length = 0 then some bs.length
  else if bs.length = 0 then some as.length
  else do
    let rows ← (as.zipIdx 1).foldlM (Rows.next? bs) (Rows.first bs.length)
    rows.above[bs.length]?

/-- The edit distance of two texts, in characters. -/
def editDistance (a b : String) : Nat :=
  (editDistance? a b).getD 0

end Scriptling.Text

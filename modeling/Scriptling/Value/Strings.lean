/-!
# The string operations

Strings are rows of characters, and places in them are counted in characters from 1. They
are kept as bytes, and a character takes one to four of them: where it begins among the
bytes has to be found out, except in a string in which every character takes one byte.

Places and counts are 64-bit words. What a substring is to be cut out of is computed from them step
by step (`window?`), without a result if a number on the way does not fit into a word or if
a count is negative. That never happens for the places of a string.
-/

namespace Scriptling.Strings

/-- The number of characters. -/
def length (s : String) : Int64 :=
  .ofNat s.length

/-- The first place of `sub` in `s`, counted from 1; 0 if there is none. -/
def position (s sub : String) : Int64 :=
  match s.find? sub with
  | some p => .ofNat (s.sliceTo p).copy.length + 1
  | none => 0

/-- At most `n` characters of `s`, from the one behind the first `k` on. Where every
character takes one byte, none of them has to be looked at. -/
def slice (s : String) (k n : Nat) : String :=
  if s.utf8ByteSize = s.length then String.Pos.Raw.extract s ⟨k⟩ ⟨k + n⟩
  else ((s.drop k).take n).copy

/-- A number as a word, if it fits. -/
def word? (i : Int) : Option Int64 :=
  if Int64.minValue.toInt ≤ i ∧ i ≤ Int64.maxValue.toInt then some (.ofInt i) else none

/-- A word as a count, if it is not negative. -/
def count? (n : Int64) : Option Nat :=
  if 0 ≤ n.toInt then some n.toInt.toNat else none

/-- How many characters to pass over and how many to take, for at most `len` characters
from place `start` on in a string of `total` characters. The last place is clamped twice:
to the greatest word, and to the end of the string. -/
def window? (total start len : Int64) : Option (Nat × Nat) := do
  let more ← word? (len.toInt - 1)
  let stop := min (Int64.ofIntClamp (start.toInt + more.toInt)) total
  let skipped ← word? (start.toInt - 1)
  let behind ← word? (stop.toInt - start.toInt)
  let taken ← word? (behind.toInt + 1)
  return (← count? skipped, ← count? taken)

/-- At most `len` characters of `s` from place `start` on, if nothing on the way goes
wrong. The empty string if `start` is not a place of the string or `len` is not positive. -/
def substring? (s : String) (start len : Int64) : Option String :=
  let total := length s
  if start < 1 ∨ total < start ∨ len ≤ 0 then some ""
  else do
    let (skipped, taken) ← window? total start len
    return slice s skipped taken

/-- At most `len` characters of `s` from place `start` on. The empty string if `start` is
not a place of the string or `len` is not positive. -/
def substring (s : String) (start len : Int64) : String :=
  (substring? s start len).getD ""

end Scriptling.Strings

/-!
# Classes of characters

A class of characters can be given by the ranges of its code points. The ranges of all
such tables stand in increasing order, so a search can stop early.
-/

namespace Scriptling.Text

/-- Whether the code point of a character lies in one of the ranges. The search ends at
the first range that starts behind it. -/
def inRanges : List (Nat × Nat) → Char → Bool
  | [], _ => false
  | (lo, hi) :: rest, c => Nat.ble lo c.toNat && (Nat.ble c.toNat hi || inRanges rest c)

end Scriptling.Text

import Scriptling.Text.Ranges

/-!
# White space

The characters with the Unicode property *White_Space*, and the trimming of a text at
both ends. The property is wider than the blanks that a program text may use between its
tokens: it is what is stripped from a line of input.
-/

namespace Scriptling.Text

/-- The characters with the property White_Space, as ranges of code points. -/
def whiteSpace : List (Nat × Nat) :=
  [(0x09, 0x0D), (0x20, 0x20), (0x85, 0x85), (0xA0, 0xA0), (0x1680, 0x1680),
    (0x2000, 0x200A), (0x2028, 0x2029), (0x202F, 0x202F), (0x205F, 0x205F), (0x3000, 0x3000)]

/-- Whether a character has the property White_Space. -/
def isWhiteSpace (c : Char) : Bool :=
  inRanges whiteSpace c

/-- The text without its longest end of characters in a class. -/
def dropWhileEnd (p : Char → Bool) (cs : List Char) : List Char :=
  (cs.reverse.dropWhile p).reverse

/-- The text without white space at its two ends. -/
def trim (cs : List Char) : List Char :=
  dropWhileEnd isWhiteSpace (cs.dropWhile isWhiteSpace)

end Scriptling.Text

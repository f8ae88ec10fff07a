import Scriptling.Text.Extending
import Scriptling.Text.Unassigned

/-!
# Characters that show

A character shows if it has ink of its own on a line. Controls, format characters,
separators other than the plain space, private and unassigned code points do not show, nor
do the fillers for missing letters of Korean, nor the characters that extend the one before
them. Of the latter the two halfwidth sound marks are excepted: they stand in a cell of
their own.
-/

namespace Scriptling.Text

/-- Controls, format characters, and separators other than the plain space. -/
def silent : List (Nat × Nat) :=
  [(0x0000, 0x001F), (0x007F, 0x00A0), (0x00AD, 0x00AD), (0x0600, 0x0605), (0x061C, 0x061C),
    (0x06DD, 0x06DD), (0x070F, 0x070F), (0x0890, 0x0891), (0x08E2, 0x08E2), (0x1680, 0x1680),
    (0x180E, 0x180E), (0x2000, 0x200F), (0x2028, 0x202F), (0x205F, 0x2064), (0x2066, 0x206F),
    (0x3000, 0x3000), (0xFEFF, 0xFEFF), (0xFFF9, 0xFFFB), (0x110BD, 0x110BD),
    (0x110CD, 0x110CD), (0x13430, 0x1343F), (0x1BCA0, 0x1BCA3), (0x1D173, 0x1D17A),
    (0xE0001, 0xE0001), (0xE0020, 0xE007F)]

/-- The code points for private use. -/
def privateUse : List (Nat × Nat) :=
  [(0xE000, 0xF8FF), (0xF0000, 0xFFFFD), (0x100000, 0x10FFFD)]

/-- The characters that stand for a missing letter of a Korean syllable. -/
def fillers : List (Nat × Nat) :=
  [(0x115F, 0x1160), (0x3164, 0x3164), (0xFFA0, 0xFFA0)]

/-- The halfwidth sound marks. -/
def soundMarks : List (Nat × Nat) :=
  [(0xFF9E, 0xFF9F)]

/-- Whether a character can be shown as itself. -/
def isVisible (c : Char) : Bool :=
  !(inRanges silent c || inRanges privateUse c || inRanges unassigned c
    || inRanges fillers c || (isExtending c && !inRanges soundMarks c))

end Scriptling.Text

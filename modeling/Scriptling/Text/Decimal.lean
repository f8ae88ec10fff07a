/-!
# Integers as text

Integers are 64-bit words in two's complement. They are written in decimal, without
leading zeros and with a minus sign if negative. Reading is more liberal: a sign of
either kind may come first and leading zeros are allowed, but the value must fit
(`readInt?`). A literal of a program is read without a sign (`readDigits?`), so it is
never negative.
-/

namespace Scriptling.Text

/-- The decimal text of an integer. -/
def decimal (n : Int64) : String :=
  let i := n.toInt
  if i < 0 then "-" ++ i.natAbs.repr else i.natAbs.repr

/-- Whether a text is a row of decimal digits, and at least one. -/
def isDigits (cs : List Char) : Bool :=
  !cs.isEmpty && cs.all Char.isDigit

/-- The number that a row of decimal digits stands for. -/
def digitsValue (cs : List Char) : Nat :=
  Nat.ofDigitChars 10 cs 0

/-- The least number that does not fit, the 63rd power of two. Its negative does fit. -/
def intLimit : Nat := 0x8000000000000000

/-- The integer that a row of digits stands for, if it fits. -/
def readDigits? (cs : List Char) : Option Int64 :=
  if isDigits cs && digitsValue cs < intLimit then some (.ofNat (digitsValue cs)) else none

/-- The negative of what a row of digits stands for, if it fits. -/
def readNegative? (cs : List Char) : Option Int64 :=
  if isDigits cs && digitsValue cs ≤ intLimit then some (.ofInt (-(digitsValue cs : Int)))
  else none

/-- The integer that a text stands for: perhaps a sign, then digits. -/
def readInt? : List Char → Option Int64
  | '-' :: cs => readNegative? cs
  | '+' :: cs => readDigits? cs
  | cs => readDigits? cs

end Scriptling.Text

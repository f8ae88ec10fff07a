import Scriptling.Syntax.Operator
import Scriptling.Value.Basic

/-!
# Arithmetic and comparison

Integer arithmetic is that of 64-bit words: results wrap around. Quotients are truncated
toward zero and remainders have the sign of the dividend; dividing the least integer by
`-1` wraps to the least integer, with remainder zero. Dividing by zero has no result.
-/

namespace Scriptling

/-- The result of an arithmetic operator; none for a division by zero. -/
def ArithOp.result? (op : ArithOp) (a b : Int64) : Option Int64 :=
  match op with
  | add => some (a + b)
  | sub => some (a - b)
  | mul => some (a * b)
  | div => if b = 0 then none else some (a / b)
  | mod => if b = 0 then none else some (a % b)

namespace CompareOp

/-- How two integers compare; none for the comparisons of strings. -/
def onInts? (op : CompareOp) (a b : Int64) : Option Bool :=
  match op with
  | eq => some (decide (a = b))
  | notEq => some (decide (a ≠ b))
  | lt => some (decide (a < b))
  | gt => some (decide (b < a))
  | ltEq => some (decide (a ≤ b))
  | gtEq => some (decide (b ≤ a))
  | strEq | strNotEq => none

/-- How two strings compare; none for the comparisons of integers. -/
def onStrs? (op : CompareOp) (a b : String) : Option Bool :=
  match op with
  | strEq => some (decide (a = b))
  | strNotEq => some (decide (a ≠ b))
  | _ => none

/-- How two values compare; none if they are not both of the kind that the operator
compares. -/
def holds? (op : CompareOp) : Value → Value → Option Bool
  | .int a, .int b => op.onInts? a b
  | .str a, .str b => op.onStrs? a b
  | _, _ => none

end CompareOp

end Scriptling

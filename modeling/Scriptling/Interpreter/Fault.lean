import Scriptling.Interpreter.Channel
import Scriptling.Source.Span
import Scriptling.Suggestion
import Scriptling.Syntax.Operator
import Scriptling.Text.Quoted
import Scriptling.Value.Basic

/-!
# What can go wrong in a run

A *fault* is the cause of a failure, as data: which name was unknown, which kinds met.
Its wording is `Fault.message`, and `Fault.category` sorts the causes into six classes.
A run-time error is a fault together with the place of the statement it came up in, if it
came up in one (`RunError`).
-/

namespace Scriptling

/-- The classes of faults. -/
inductive FaultCategory
  | undefinedVariable | typeError | typeConflict | divisionByZero | channelError | strayControl
deriving DecidableEq, Repr

/-- The statements that end a round of a loop. -/
inductive LoopJump
  | break_ | continue_
deriving DecidableEq, Repr

/-- The word for the statement. -/
def LoopJump.text : LoopJump → String
  | break_ => "break"
  | continue_ => "continue"

/-- The cause of a failure. -/
inductive Fault
  /-- a name that no frame binds, with a suggestion for it -/
  | undefinedVariable (name : String) (suggestion : Option String)
  /-- a value of the wrong kind -/
  | wrongKind (expected got : Kind)
  /-- operands of the wrong kinds on the two sides of an operator -/
  | wrongOperands (expected left : Kind) (op : String) (right : Kind)
  /-- a value that cannot be stored -/
  | notStorable (got : Kind)
  /-- a variable that would change its kind -/
  | typeConflict (name : String) (existing attempted : Kind)
  /-- a division by zero -/
  | divisionByZero
  /-- no line of input is left -/
  | endOfInput
  /-- a line of input that cannot be read -/
  | unreadable (why : ReadError)
  /-- output that cannot be written -/
  | unwritable (why : WriteError)
  /-- a line of input that is not an integer -/
  | notInteger (line : String)
  /-- a `break` or `continue` that no loop took -/
  | strayControl (jump : LoopJump)
deriving DecidableEq, Repr

namespace Fault

/-- The class of a fault. -/
def category : Fault → FaultCategory
  | undefinedVariable _ _ => .undefinedVariable
  | wrongKind _ _ | wrongOperands _ _ _ _ | notStorable _ => .typeError
  | typeConflict _ _ _ => .typeConflict
  | divisionByZero => .divisionByZero
  | endOfInput | unreadable _ | unwritable _ | notInteger _ => .channelError
  | strayControl _ => .strayControl

/-- The fault in words. -/
def message : Fault → String
  | undefinedVariable name suggestion =>
    "undefined variable: " ++ name ++ Suggestion.hint suggestion
  | wrongKind expected got =>
    "type error: expected " ++ expected.text ++ ", got " ++ got.text
  | wrongOperands expected left op right =>
    "type error: expected " ++ expected.text ++ ", got " ++ left.text ++ " " ++ op ++ " "
      ++ right.text
  | notStorable got => "type error: expected integer or string, got " ++ got.text
  | typeConflict name existing attempted =>
    "cannot change the type of variable " ++ name ++ " from " ++ existing.text ++ " to "
      ++ attempted.text
  | divisionByZero => "division by zero"
  | endOfInput => "IO error: end of input"
  | unreadable why => "IO error: " ++ why.message
  | unwritable why => "IO error: " ++ why.message
  | notInteger line => "IO error: expected integer, got " ++ Text.quote line
  | strayControl jump => jump.text ++ " outside of a for loop"

end Fault

/-- A failed run: the fault, and the span it is reported at. A fault that no statement brought
up has none. -/
structure RunError where
  /-- what went wrong -/
  fault : Fault
  /-- where -/
  span : Option Span
deriving DecidableEq, Repr

/-- The error at this span, unless it has a span already. -/
def RunError.locate (span : Span) (e : RunError) : RunError :=
  if e.span.isNone then { e with span } else e

end Scriptling

import Scriptling.Interpreter.Channel
import Scriptling.Interpreter.Scopes
import Scriptling.Syntax.Tree
import Scriptling.Value.Arithmetic
import Scriptling.Value.Strings

/-!
# Evaluation of expressions

Evaluating an expression looks variables up and may read lines of input; it changes
neither variables nor output. So the scopes are a parameter, the input is the state, and
a fault ends the evaluation with the input as far as it was read (`Eval`).

Operands are evaluated from left to right, all of them before the kind of any is looked
at. The connectives are the exception: the kind of the left operand is checked first, and
the right one is evaluated only if the left one does not decide the result.
-/

namespace Scriptling

/-- A computation that may read input and may fail. -/
abbrev Eval (ι α : Type) := ExceptT Fault (StateM ι) α

namespace Value

/-- The integer; a fault if the value is of another kind. -/
def asInt (v : Value) : Except Fault Int64 :=
  match v.int? with
  | some n => .ok n
  | none => .error (.wrongKind .int v.kind)

/-- The string; a fault if the value is of another kind. -/
def asStr (v : Value) : Except Fault String :=
  match v.str? with
  | some s => .ok s
  | none => .error (.wrongKind .str v.kind)

/-- The boolean; a fault if the value is of another kind. -/
def asBool (v : Value) : Except Fault Bool :=
  match v.bool? with
  | some b => .ok b
  | none => .error (.wrongKind .bool v.kind)

end Value

/-- Arithmetic on integers, with a fault for a division by zero. -/
def ArithOp.compute (op : ArithOp) (a b : Int64) : Except Fault Int64 :=
  match op.result? a b with
  | some n => .ok n
  | none => .error .divisionByZero

/-- Arithmetic on values: both have to be integers. -/
def ArithOp.onValues (op : ArithOp) : Value → Value → Except Fault Value
  | .int a, .int b => (op.compute a b).map .int
  | a, b => .error (.wrongOperands .int a.kind op.text b.kind)

/-- The kind that a comparison is about. -/
def CompareOp.operandKind (op : CompareOp) : Kind :=
  if op.onStrings then .str else .int

/-- Comparison of values: both have to be of the kind that the operator is about. -/
def CompareOp.onValues (op : CompareOp) (a b : Value) : Except Fault Value :=
  match op.holds? a b with
  | some r => .ok (.bool r)
  | none => .error (.wrongOperands op.operandKind a.kind op.text b.kind)

/-- An operator of one operand. -/
def UnaryOp.onValue : UnaryOp → Value → Except Fault Value
  | neg, v => return .int (-(← v.asInt))
  | not, v => return .bool (!(← v.asBool))

/-- The result that the left operand of a connective decides by itself, if any. -/
def LogicOp.decided? : LogicOp → Bool → Option Bool
  | and, false => some false
  | or, true => some true
  | _, _ => none

/-- The integer in a line of input. -/
def integerOfLine (line : String) : Except Fault Value :=
  let text := Text.trim line.toList
  match Text.readInt? text with
  | some n => .ok (.int n)
  | none => .error (.notInteger (String.ofList text))

/-- The string in a line of input. -/
def stringOfLine (line : String) : Value :=
  .str (String.ofList (Text.trim line.toList))

section

variable {ι : Type} [LineSource ι]

/-- The next line of input; a fault if there is none or it cannot be read. -/
def readLine : Eval ι String := ExceptT.mk fun input =>
  match LineSource.next input with
  | (.line text, rest) => (.ok text, rest)
  | (.failed why, rest) => (.error (.unreadable why), rest)
  | (.finished, rest) => (.error .endOfInput, rest)

/-- The value of an expression. -/
def eval (scopes : Scopes) : Expr → Eval ι Value
  | .int _ n => return .int n
  | .str _ s => return .str s
  | .bool _ b => return .bool b
  | .var _ x => scopes.lookup x
  | .arith _ left op right => do
    let a ← eval scopes left
    let b ← eval scopes right
    op.onValues a b
  | .compare _ left op right => do
    let a ← eval scopes left
    let b ← eval scopes right
    op.onValues a b
  | .logic _ left op right => do
    let a ← (← eval scopes left).asBool
    match op.decided? a with
    | some r => return .bool r
    | none =>
      let b ← (← eval scopes right).asBool
      return .bool b
  | .unary _ op operand => do
    let a ← eval scopes operand
    op.onValue a
  | .length _ text => do
    let s ← (← eval scopes text).asStr
    return .int (Strings.length s)
  | .position _ haystack needle => do
    let a ← eval scopes haystack
    let b ← eval scopes needle
    let s ← a.asStr
    let sub ← b.asStr
    return .int (Strings.position s sub)
  | .concatenate _ left right => do
    let a ← eval scopes left
    let b ← eval scopes right
    let s ← a.asStr
    let t ← b.asStr
    return .str (s ++ t)
  | .substring _ text start len => do
    let a ← eval scopes text
    let b ← eval scopes start
    let c ← eval scopes len
    let s ← a.asStr
    let i ← b.asInt
    let n ← c.asInt
    return .str (Strings.substring s i n)
  | .readInt _ => do
    let line ← readLine
    integerOfLine line
  | .readStr _ => do
    let line ← readLine
    return stringOfLine line

end

end Scriptling

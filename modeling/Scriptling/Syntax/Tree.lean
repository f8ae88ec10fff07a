import Scriptling.Source.Span
import Scriptling.Syntax.Operator

/-!
# Program trees

The tree of a program: expressions, statements, and a program as a list of
statements. Every node carries the span of source it was read from. The span is the
first field of each constructor, so a tree has one span per node and induction on
trees meets no wrapper type.

A conditional with an `else` and one without are two constructors: they differ in
which texts they come from (`Stmt.ifThen`, `Stmt.ifThenElse`).
-/

namespace Scriptling

/-- Expressions. -/
inductive Expr
  /-- an integer literal -/
  | int (span : Span) (value : Int64)
  /-- a string literal -/
  | str (span : Span) (value : String)
  /-- a boolean literal -/
  | bool (span : Span) (value : Bool)
  /-- a variable -/
  | var (span : Span) (name : String)
  /-- integer arithmetic -/
  | arith (span : Span) (left : Expr) (op : ArithOp) (right : Expr)
  /-- a comparison of integers or of strings -/
  | compare (span : Span) (left : Expr) (op : CompareOp) (right : Expr)
  /-- a connective -/
  | logic (span : Span) (left : Expr) (op : LogicOp) (right : Expr)
  /-- an operator of one operand -/
  | unary (span : Span) (op : UnaryOp) (operand : Expr)
  /-- the built-in `length(text)` -/
  | length (span : Span) (text : Expr)
  /-- the built-in `position(haystack, needle)` -/
  | position (span : Span) (haystack needle : Expr)
  /-- the built-in `concatenate(left, right)` -/
  | concatenate (span : Span) (left right : Expr)
  /-- the built-in `substring(text, start, len)` -/
  | substring (span : Span) (text start len : Expr)
  /-- the built-in `readint()` -/
  | readInt (span : Span)
  /-- the built-in `readstr()` -/
  | readStr (span : Span)
deriving DecidableEq, Repr

/-- Statements. -/
inductive Stmt
  /-- assignment: `name := value` -/
  | assign (span : Span) (name : String) (value : Expr)
  /-- output: `print(value)` -/
  | print (span : Span) (value : Expr)
  /-- choice without alternative: `if cond then yes` -/
  | ifThen (span : Span) (cond : Expr) (yes : Stmt)
  /-- choice with alternative: `if cond then yes else no` -/
  | ifThenElse (span : Span) (cond : Expr) (yes no : Stmt)
  /-- loop: `for var := first to last do body` -/
  | forTo (span : Span) (var : String) (first last : Expr) (body : Stmt)
  /-- block: `begin body end` -/
  | block (span : Span) (body : List Stmt)
  /-- to leave the innermost loop: `break` -/
  | break_ (span : Span)
  /-- to go on with the next round of the innermost loop: `continue` -/
  | continue_ (span : Span)
  /-- to end the program: `exit` -/
  | exit_ (span : Span)
deriving Repr

/-- A program is its statements, to be run in order. -/
structure Program where
  /-- the statements -/
  body : List Stmt
deriving Repr

namespace Expr

/-- The span of an expression. -/
def span : Expr → Span
  | int s _ | str s _ | bool s _ | var s _ | arith s _ _ _ | compare s _ _ _
  | logic s _ _ _ | unary s _ _ | length s _ | position s _ _ | concatenate s _ _
  | substring s _ _ _ | readInt s | readStr s => s

/-- The same expression at another span; the spans of its parts stay. Parentheses
around an expression widen its span in this way and leave no other trace. -/
def withSpan (s : Span) : Expr → Expr
  | int _ n => int s n
  | str _ t => str s t
  | bool _ b => bool s b
  | var _ x => var s x
  | arith _ l op r => arith s l op r
  | compare _ l op r => compare s l op r
  | logic _ l op r => logic s l op r
  | unary _ op e => unary s op e
  | length _ e => length s e
  | position _ h n => position s h n
  | concatenate _ l r => concatenate s l r
  | substring _ t b n => substring s t b n
  | readInt _ => readInt s
  | readStr _ => readStr s

@[simp] theorem span_withSpan (s : Span) (e : Expr) : (e.withSpan s).span = s := by
  cases e <;> rfl

end Expr

namespace Stmt

/-- The span of a statement. -/
def span : Stmt → Span
  | assign s _ _ | print s _ | ifThen s _ _ | ifThenElse s _ _ _ | forTo s _ _ _ _
  | block s _ | break_ s | continue_ s | exit_ s => s

end Stmt

end Scriptling

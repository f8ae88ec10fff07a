/-!
# Operators

The operators of the language by what they do: arithmetic on integers, comparison of
integers or of strings, the two connectives, and the two operators of one operand.
Each is given with its written form. Which comparison is one of strings is a matter
of the operator alone, never of its operands.
-/

namespace Scriptling

/-- Integer arithmetic. -/
inductive ArithOp
  | add | sub | mul | div | mod
deriving DecidableEq, Repr

/-- Comparison. The last two compare strings, the others integers. -/
inductive CompareOp
  | eq | notEq | lt | gt | ltEq | gtEq | strEq | strNotEq
deriving DecidableEq, Repr

/-- The connectives, which look at their right operand only when they need to. -/
inductive LogicOp
  | and | or
deriving DecidableEq, Repr

/-- Operators of one operand. -/
inductive UnaryOp
  | neg | not
deriving DecidableEq, Repr

namespace ArithOp

/-- All arithmetic operators. -/
def all : List ArithOp := [add, sub, mul, div, mod]

/-- The written form. -/
def text : ArithOp → String
  | add => "+"
  | sub => "-"
  | mul => "*"
  | div => "/"
  | mod => "%"

/-- The name of the operator in the data form of a tree. -/
def label : ArithOp → String
  | add => "Add"
  | sub => "Sub"
  | mul => "Mul"
  | div => "Div"
  | mod => "Mod"

end ArithOp

namespace CompareOp

/-- All comparisons. -/
def all : List CompareOp := [eq, notEq, lt, gt, ltEq, gtEq, strEq, strNotEq]

/-- The written form. -/
def text : CompareOp → String
  | eq => "="
  | notEq => "<>"
  | lt => "<"
  | gt => ">"
  | ltEq => "<="
  | gtEq => ">="
  | strEq => "=="
  | strNotEq => "!="

/-- The name of the operator in the data form of a tree. -/
def label : CompareOp → String
  | eq => "Eq"
  | notEq => "NotEq"
  | lt => "Lt"
  | gt => "Gt"
  | ltEq => "LtEq"
  | gtEq => "GtEq"
  | strEq => "StrEq"
  | strNotEq => "StrNotEq"

/-- Whether the operator compares strings. -/
def onStrings : CompareOp → Bool
  | strEq | strNotEq => true
  | _ => false

end CompareOp

namespace LogicOp

/-- Both connectives. -/
def all : List LogicOp := [and, or]

/-- The written form. -/
def text : LogicOp → String
  | and => "and"
  | or => "or"

/-- The name of the operator in the data form of a tree. -/
def label : LogicOp → String
  | and => "And"
  | or => "Or"

end LogicOp

namespace UnaryOp

/-- Both operators of one operand. -/
def all : List UnaryOp := [neg, not]

/-- The written form. -/
def text : UnaryOp → String
  | neg => "-"
  | not => "not"

/-- The name of the operator in the data form of a tree. -/
def label : UnaryOp → String
  | neg => "Neg"
  | not => "Not"

end UnaryOp

end Scriptling

import Scriptling.Text.Decimal

/-!
# Values

Expressions come to an integer, a string or a boolean. Variables hold integers and
strings only: a boolean can be printed and can decide a branch, but it cannot be stored
(`Value.storable`).
-/

namespace Scriptling

/-- A value. -/
inductive Value
  | int (n : Int64)
  | str (s : String)
  | bool (b : Bool)
deriving DecidableEq, Repr

/-- The kind of a value. A variable keeps the kind of its first value. -/
inductive Kind
  | int | str | bool
deriving DecidableEq, Repr

/-- The kind's name in messages. -/
def Kind.text : Kind → String
  | int => "integer"
  | str => "string"
  | bool => "boolean"

namespace Value

/-- The kind of a value. -/
def kind : Value → Kind
  | int _ => .int
  | str _ => .str
  | bool _ => .bool

/-- The text that `print` writes for a value. -/
def text : Value → String
  | int n => Text.decimal n
  | str s => s
  | bool true => "true"
  | bool false => "false"

/-- The integer, if the value is one. -/
def int? : Value → Option Int64
  | int n => some n
  | _ => none

/-- The string, if the value is one. -/
def str? : Value → Option String
  | str s => some s
  | _ => none

/-- The boolean, if the value is one. -/
def bool? : Value → Option Bool
  | bool b => some b
  | _ => none

/-- Whether a variable may hold the value. -/
def storable (v : Value) : Bool :=
  v.kind != .bool

end Value

end Scriptling

import Scriptling.Json
import Scriptling.Syntax.Tree

/-!
# Trees as data

A tree can be written as a JSON value and read back. Every node is an object with the
members `node` and `span`. A kind of node without parts is its name as a string; one with
parts is an object whose only member has the name of the kind. A conditional without
`else` has `null` in its place.

Reading follows the nesting of the value; its height bounds the recursion. Members may
come in any order when reading.
-/

namespace Scriptling

namespace Json

/-- Reads the member of an object with a name. -/
def member? {α : Type} (key : String) (read? : Json → Option α) (j : Json) : Option α :=
  (j.get? key).bind read?

/-- The only member of an object, with its name. -/
def variant? : Json → Option (String × Json)
  | obj [m] => some m
  | _ => none

/-- Text as read from data. -/
def str? : Json → Option String
  | str s => some s
  | _ => none

/-- A boolean as read from data. -/
def bool? : Json → Option Bool
  | bool b => some b
  | _ => none

/-- A natural number as read from data. -/
def nat? : Json → Option Nat
  | int (.ofNat n) => some n
  | _ => none

/-- A 64-bit integer as read from data. -/
def int64? : Json → Option Int64
  | int n => if Int64.minValue.toInt ≤ n ∧ n ≤ Int64.maxValue.toInt then some (.ofInt n) else none
  | _ => none

end Json

namespace Span

/-- A span as data. -/
def toJson (s : Span) : Json :=
  .obj [("start", .int s.start), ("end", .int s.stop)]

/-- A span as read from data. -/
def ofJson? (j : Json) : Option Span := do
  let start ← j.member? "start" Json.nat?
  let stop ← j.member? "end" Json.nat?
  return ⟨start, stop⟩

end Span

/-- A node with its span. -/
def Json.node (span : Span) (node : Json) : Json :=
  .obj [("node", node), ("span", span.toJson)]

/-- The operator that data names. -/
def ArithOp.ofJson? (j : Json) : Option ArithOp :=
  j.str?.bind fun s => all.find? (·.label == s)

/-- The operator that data names. -/
def CompareOp.ofJson? (j : Json) : Option CompareOp :=
  j.str?.bind fun s => all.find? (·.label == s)

/-- The operator that data names. -/
def LogicOp.ofJson? (j : Json) : Option LogicOp :=
  j.str?.bind fun s => all.find? (·.label == s)

/-- The operator that data names. -/
def UnaryOp.ofJson? (j : Json) : Option UnaryOp :=
  j.str?.bind fun s => all.find? (·.label == s)

namespace Expr

/-- An expression as data. -/
def toJson : Expr → Json
  | int s n => .node s (.obj [("IntLit", .int n.toInt)])
  | str s t => .node s (.obj [("StringLit", .str t)])
  | bool s b => .node s (.obj [("BoolLit", .bool b)])
  | var s x => .node s (.obj [("Var", .str x)])
  | arith s l op r => .node s (.obj [("Binary",
      .obj [("left", l.toJson), ("op", .str op.label), ("right", r.toJson)])])
  | compare s l op r => .node s (.obj [("Compare",
      .obj [("left", l.toJson), ("op", .str op.label), ("right", r.toJson)])])
  | logic s l op r => .node s (.obj [("Logical",
      .obj [("left", l.toJson), ("op", .str op.label), ("right", r.toJson)])])
  | unary s op e => .node s (.obj [("Unary",
      .obj [("op", .str op.label), ("operand", e.toJson)])])
  | length s e => .node s (.obj [("Length", e.toJson)])
  | position s h n => .node s (.obj [("Position",
      .obj [("haystack", h.toJson), ("needle", n.toJson)])])
  | concatenate s l r => .node s (.obj [("Concatenate",
      .obj [("left", l.toJson), ("right", r.toJson)])])
  | substring s t b n => .node s (.obj [("Substring",
      .obj [("string", t.toJson), ("start", b.toJson), ("len", n.toJson)])])
  | readInt s => .node s (.str "ReadInt")
  | readStr s => .node s (.str "ReadStr")

/-- An expression of a kind without parts, as read from data. -/
def plainOfJson? (s : Span) (name : String) : Option Expr :=
  match name with
  | "ReadInt" => some (readInt s)
  | "ReadStr" => some (readStr s)
  | _ => none

/-- An expression of a kind with parts, as read from data, given how to read the
expressions inside. -/
def partsOfJson? (inner? : Json → Option Expr) (s : Span) (name : String) (j : Json) :
    Option Expr :=
  match name with
  | "IntLit" => j.int64?.map (int s)
  | "StringLit" => j.str?.map (str s)
  | "BoolLit" => j.bool?.map (bool s)
  | "Var" => j.str?.map (var s)
  | "Binary" => do
    let left ← j.member? "left" inner?
    let op ← j.member? "op" ArithOp.ofJson?
    let right ← j.member? "right" inner?
    return arith s left op right
  | "Compare" => do
    let left ← j.member? "left" inner?
    let op ← j.member? "op" CompareOp.ofJson?
    let right ← j.member? "right" inner?
    return compare s left op right
  | "Logical" => do
    let left ← j.member? "left" inner?
    let op ← j.member? "op" LogicOp.ofJson?
    let right ← j.member? "right" inner?
    return logic s left op right
  | "Unary" => do
    let op ← j.member? "op" UnaryOp.ofJson?
    let operand ← j.member? "operand" inner?
    return unary s op operand
  | "Length" => (inner? j).map (length s)
  | "Position" => do
    let haystack ← j.member? "haystack" inner?
    let needle ← j.member? "needle" inner?
    return position s haystack needle
  | "Concatenate" => do
    let left ← j.member? "left" inner?
    let right ← j.member? "right" inner?
    return concatenate s left right
  | "Substring" => do
    let text ← j.member? "string" inner?
    let start ← j.member? "start" inner?
    let len ← j.member? "len" inner?
    return substring s text start len
  | _ => none

/-- An expression as read from data that is nested at most `depth` deep. -/
def ofJsonWithin? : (depth : Nat) → Json → Option Expr
  | 0, _ => none
  | depth + 1, j => do
    let s ← j.member? "span" Span.ofJson?
    match ← j.get? "node" with
    | .str name => plainOfJson? s name
    | node =>
      let (name, parts) ← node.variant?
      partsOfJson? (ofJsonWithin? depth) s name parts

/-- An expression as read from data. -/
def ofJson? (j : Json) : Option Expr :=
  ofJsonWithin? j.height j

end Expr

namespace Stmt

mutual

/-- A statement as data. -/
def toJson : Stmt → Json
  | assign s x e => .node s (.obj [("Assign",
      .obj [("name", .str x), ("value", e.toJson)])])
  | print s e => .node s (.obj [("Print", .obj [("value", e.toJson)])])
  | ifThen s c yes => .node s (.obj [("If",
      .obj [("cond", c.toJson), ("then_branch", yes.toJson), ("else_branch", .null)])])
  | ifThenElse s c yes no => .node s (.obj [("If",
      .obj [("cond", c.toJson), ("then_branch", yes.toJson), ("else_branch", no.toJson)])])
  | forTo s x first last body => .node s (.obj [("For",
      .obj [("var", .str x), ("from", first.toJson), ("to", last.toJson),
        ("body", body.toJson)])])
  | block s body => .node s (.obj [("Block", .arr (toJsons body))])
  | break_ s => .node s (.str "Break")
  | continue_ s => .node s (.str "Continue")
  | exit_ s => .node s (.str "Exit")

/-- Statements as data. -/
def toJsons : List Stmt → List Json
  | [] => []
  | s :: ss => s.toJson :: toJsons ss

end

/-- A statement of a kind without parts, as read from data. -/
def plainOfJson? (s : Span) (name : String) : Option Stmt :=
  match name with
  | "Break" => some (break_ s)
  | "Continue" => some (continue_ s)
  | "Exit" => some (exit_ s)
  | _ => none

/-- A statement of a kind with parts, as read from data, given how to read the statements
inside. -/
def partsOfJson? (inner? : Json → Option Stmt) (s : Span) (name : String) (j : Json) :
    Option Stmt :=
  match name with
  | "Assign" => do
    let x ← j.member? "name" Json.str?
    let value ← j.member? "value" Expr.ofJson?
    return assign s x value
  | "Print" => do
    let value ← j.member? "value" Expr.ofJson?
    return print s value
  | "If" => do
    let cond ← j.member? "cond" Expr.ofJson?
    let yes ← j.member? "then_branch" inner?
    match j.get? "else_branch" with
    | none | some .null => return ifThen s cond yes
    | some no => (inner? no).map (ifThenElse s cond yes)
  | "For" => do
    let x ← j.member? "var" Json.str?
    let first ← j.member? "from" Expr.ofJson?
    let last ← j.member? "to" Expr.ofJson?
    let body ← j.member? "body" inner?
    return forTo s x first last body
  | "Block" =>
    match j with
    | .arr items => (items.mapM inner?).map (block s)
    | _ => none
  | _ => none

/-- A statement as read from data that is nested at most `depth` deep. -/
def ofJsonWithin? : (depth : Nat) → Json → Option Stmt
  | 0, _ => none
  | depth + 1, j => do
    let s ← j.member? "span" Span.ofJson?
    match ← j.get? "node" with
    | .str name => plainOfJson? s name
    | node =>
      let (name, parts) ← node.variant?
      partsOfJson? (ofJsonWithin? depth) s name parts

/-- A statement as read from data. -/
def ofJson? (j : Json) : Option Stmt :=
  ofJsonWithin? j.height j

end Stmt

namespace Program

/-- A program as data. -/
def toJson (p : Program) : Json :=
  .obj [("body", .arr (Stmt.toJsons p.body))]

/-- A program as read from data. -/
def ofJson? (j : Json) : Option Program :=
  match j.get? "body" with
  | some (.arr items) => (items.mapM Stmt.ofJson?).map Program.mk
  | _ => none

end Program

end Scriptling

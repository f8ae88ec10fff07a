import Scriptling.Source.Span
import Scriptling.Text.Decimal
import Scriptling.Text.Quoted
import Scriptling.Token.Keyword
import Scriptling.Token.Mark

/-!
# Tokens

A program text is a row of tokens. There are three families: *words* that the
language keeps for itself (its keywords and the names of its built-in operations),
*marks* made of one or two punctuation characters, and the tokens that carry a
value: integer literals, string literals and names.

A *terminal* is what the grammar sees of a token, its class without the value
(`Token.terminal`); `Terminal.Payload` is the type of the value that was left out.
Terminals have a fixed order (`Terminal.all`), the one in which a syntax error lists
what it would have accepted.
-/

namespace Scriptling

/-- A token of the language. -/
inductive Token
  /-- a reserved word -/
  | word (w : Keyword)
  /-- an integer literal -/
  | int (n : Int64)
  /-- a string literal, without its quotes -/
  | str (s : String)
  /-- a name -/
  | name (s : String)
  /-- a punctuation mark -/
  | mark (m : Mark)
deriving DecidableEq, Repr

/-- What the grammar sees of a token. -/
inductive Terminal
  | word (w : Keyword)
  | int
  | str
  | name
  | mark (m : Mark)
deriving DecidableEq, Repr

namespace Terminal

/-- All terminals, in the order in which a syntax error lists them. -/
def all : List Terminal :=
  Keyword.all.map word ++ [int, str, name] ++ Mark.all.map mark

/-- The place of a terminal in `Terminal.all`. -/
def index : Terminal → Nat
  | word w => w.ctorIdx
  | int => 23
  | str => 24
  | name => 25
  | mark m => 26 + m.ctorIdx

/-- How a syntax error names the terminal: fixed texts in quotes, classes bare. -/
def text : Terminal → String
  | word w => "\"" ++ w.text ++ "\""
  | int => "IntLit"
  | str => "StringLit"
  | name => "Ident"
  | mark m => "\"" ++ m.text ++ "\""

/-- What a token of this class carries beside its class. -/
@[reducible]
def Payload : Terminal → Type
  | int => Int64
  | str => String
  | name => String
  | _ => Unit

/-- The list of all terminals has each at its place. -/
theorem all_get_index (t : Terminal) : all[t.index]? = some t := by
  rcases t with w | _ | _ | _ | m
  · cases w <;> rfl
  · rfl
  · rfl
  · rfl
  · cases m <;> rfl

end Terminal

namespace Token

/-- The class of a token. -/
@[reducible]
def terminal : Token → Terminal
  | word w => .word w
  | int _ => .int
  | str _ => .str
  | name _ => .name
  | mark m => .mark m

/-- What the class leaves out. -/
def payload : (t : Token) → t.terminal.Payload
  | word _ => ()
  | int n => n
  | str s => s
  | name s => s
  | mark _ => ()

/-- How a token is written: an integer in its shortest form, a string within quotes. -/
def text : Token → String
  | word w => w.text
  | int n => Text.decimal n
  | str s => "\"" ++ s ++ "\""
  | name s => s
  | mark m => m.text

/-- The class name of a token in a token listing. -/
def label : Token → String
  | word w => w.label
  | int _ => "IntLit"
  | str _ => "StringLit"
  | name _ => "Ident"
  | mark m => m.label

/-- A token in a token listing: its class name, with what it carries in parentheses. -/
def listing (t : Token) : String :=
  match t with
  | int n => t.label ++ "(" ++ Text.decimal n ++ ")"
  | str s | name s => t.label ++ "(" ++ Text.quote s ++ ")"
  | word _ | mark _ => t.label

end Token

/-- A token and where it stands. -/
structure Placed where
  /-- the token -/
  token : Token
  /-- its place in the source -/
  span : Span
deriving DecidableEq, Repr

end Scriptling

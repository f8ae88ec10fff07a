/-!
# Marks

The punctuation of the language: marks of one or two characters, in a fixed order. Where a
text starts with a mark of two characters and also with one of one character, the longer
one is meant.
-/

namespace Scriptling

/-- The punctuation of the language. -/
inductive Mark
  | assign | semi | comma | lparen | rparen
  | plus | minus | star | slash | percent
  | eq | ltGt | ltEq | gtEq | lt | gt | eqEq | notEq
deriving DecidableEq, Repr

namespace Mark

/-- All marks, in their fixed order. -/
def all : List Mark :=
  [assign, semi, comma, lparen, rparen, plus, minus, star, slash, percent,
    eq, ltGt, ltEq, gtEq, lt, gt, eqEq, notEq]

/-- How the mark is written. -/
def text : Mark → String
  | assign => ":="
  | semi => ";"
  | comma => ","
  | lparen => "("
  | rparen => ")"
  | plus => "+"
  | minus => "-"
  | star => "*"
  | slash => "/"
  | percent => "%"
  | eq => "="
  | ltGt => "<>"
  | ltEq => "<="
  | gtEq => ">="
  | lt => "<"
  | gt => ">"
  | eqEq => "=="
  | notEq => "!="

/-- The class name of the mark in a token listing. -/
def label : Mark → String
  | assign => "ColonEq"
  | semi => "Semi"
  | comma => "Comma"
  | lparen => "LParen"
  | rparen => "RParen"
  | plus => "Plus"
  | minus => "Minus"
  | star => "Star"
  | slash => "Slash"
  | percent => "Percent"
  | eq => "Eq"
  | ltGt => "LtGt"
  | ltEq => "LtEq"
  | gtEq => "GtEq"
  | lt => "Lt"
  | gt => "Gt"
  | eqEq => "EqEq"
  | notEq => "NotEq"

/-- The mark written with exactly these two characters. -/
def ofPair? : Char → Char → Option Mark
  | ':', '=' => some assign
  | '<', '>' => some ltGt
  | '<', '=' => some ltEq
  | '>', '=' => some gtEq
  | '=', '=' => some eqEq
  | '!', '=' => some notEq
  | _, _ => none

/-- The mark written with exactly this character. -/
def ofChar? : Char → Option Mark
  | ';' => some semi
  | ',' => some comma
  | '(' => some lparen
  | ')' => some rparen
  | '+' => some plus
  | '-' => some minus
  | '*' => some star
  | '/' => some slash
  | '%' => some percent
  | '=' => some eq
  | '<' => some lt
  | '>' => some gt
  | _ => none

end Mark

end Scriptling

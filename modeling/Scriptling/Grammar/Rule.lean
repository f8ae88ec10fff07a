import Scriptling.Syntax.Tree
import Scriptling.Token.Basic

/-!
# The grammar

The grammar of the language as data: nonterminals, rules, and for each rule the value
that it builds from the values of the phrases on its right side.

* Statements are separated by `;`, a last `;` may follow, and there may be none.
* Statements come as *open* and *closed* ones. A closed statement can be followed by
  `else` without claiming it, and only a closed one may stand between `then` and
  `else`, so an `else` belongs to the nearest `if` that can take it.
* Expressions have a nonterminal for each level of binding. From loose to tight:
  `or`, `and`, comparisons (which do not chain), sums, products, the operators of one
  operand, and the indivisible expressions.

`Rule.build` is typed by the rule: it takes exactly the values of the symbols on the
right side (`Values`) and gives a value of the symbol on the left (`Symbol.Value`).
-/

namespace Scriptling

/-- The phrases of the grammar. -/
inductive Nonterminal
  /-- a whole program -/
  | program
  /-- statements with separators between, perhaps none, perhaps with a last separator -/
  | stmtList
  /-- one or more statements with separators between -/
  | stmts
  /-- any statement -/
  | stmt
  /-- a statement that leaves a following `else` alone -/
  | closedStmt
  /-- a statement that would take a following `else` -/
  | openStmt
  /-- a statement with no statement as its last part -/
  | simpleStmt
  /-- any expression -/
  | expr
  | orExpr
  | andExpr
  | compareExpr
  | compareOp
  | sumExpr
  | sumOp
  | productExpr
  | productOp
  | unaryExpr
  /-- an expression with no operator outside parentheses -/
  | primary
deriving DecidableEq, Repr

/-- Terminals and nonterminals. -/
inductive Symbol
  | terminal (t : Terminal)
  | nonterminal (n : Nonterminal)
deriving DecidableEq, Repr

/-- What a phrase stands for. The statements of `stmts` are collected last one first. -/
@[reducible]
def Nonterminal.Value : Nonterminal → Type
  | program => Program
  | stmtList | stmts => List Stmt
  | stmt | closedStmt | openStmt | simpleStmt => Stmt
  | expr | orExpr | andExpr | compareExpr | sumExpr | productExpr | unaryExpr | primary => Expr
  | compareOp => CompareOp
  | sumOp | productOp => ArithOp

/-- What a symbol stands for: a terminal for its payload. -/
@[reducible]
def Symbol.Value : Symbol → Type
  | terminal t => t.Payload
  | nonterminal n => n.Value

/-- One value for each symbol of a row. -/
@[reducible]
def Values : List Symbol → Type
  | [] => Unit
  | s :: ss => s.Value × Values ss

/-- The rules of the grammar. -/
inductive Rule
  | program
  | noStmts | stmtsOnly | stmtsSemi
  | nextStmt | firstStmt
  | anyOpen | anyClosed
  | simple | ifElseClosed | forClosed
  | ifThen | ifElseOpen | forOpen
  | assign | print | block | break_ | continue_ | exit_
  | expr
  | or_ | orAnd
  | and_ | andCompare
  | compare | compareSum
  | eq | notEq | lt | gt | ltEq | gtEq | strEq | strNotEq
  | sum | sumProduct
  | add | sub
  | product | productUnary
  | mul | div | mod
  | neg | not_ | unaryPrimary
  | int | str | true_ | false_ | var | parens
  | length | position | concatenate | substring | readInt | readStr
deriving DecidableEq, Repr

namespace Rule

/-- The phrase that a rule makes. -/
@[reducible]
def lhs : Rule → Nonterminal
  | program => .program
  | noStmts | stmtsOnly | stmtsSemi => .stmtList
  | firstStmt | nextStmt => .stmts
  | anyOpen | anyClosed => .stmt
  | simple | ifElseClosed | forClosed => .closedStmt
  | ifThen | ifElseOpen | forOpen => .openStmt
  | assign | print | block | break_ | continue_ | exit_ => .simpleStmt
  | expr => .expr
  | or_ | orAnd => .orExpr
  | and_ | andCompare => .andExpr
  | compare | compareSum => .compareExpr
  | eq | notEq | lt | gt | ltEq | gtEq | strEq | strNotEq => .compareOp
  | sum | sumProduct => .sumExpr
  | add | sub => .sumOp
  | product | productUnary => .productExpr
  | mul | div | mod => .productOp
  | neg | not_ | unaryPrimary => .unaryExpr
  | int | str | true_ | false_ | var | parens
  | length | position | concatenate | substring | readInt | readStr => .primary

end Rule

/-- The rules that make a phrase. -/
def Nonterminal.rules : Nonterminal → List Rule
  | program => [.program]
  | stmtList => [.noStmts, .stmtsOnly, .stmtsSemi]
  | stmts => [.nextStmt, .firstStmt]
  | stmt => [.anyOpen, .anyClosed]
  | closedStmt => [.simple, .ifElseClosed, .forClosed]
  | openStmt => [.ifThen, .ifElseOpen, .forOpen]
  | simpleStmt => [.assign, .print, .block, .break_, .continue_, .exit_]
  | expr => [.expr]
  | orExpr => [.or_, .orAnd]
  | andExpr => [.and_, .andCompare]
  | compareExpr => [.compare, .compareSum]
  | compareOp => [.eq, .notEq, .lt, .gt, .ltEq, .gtEq, .strEq, .strNotEq]
  | sumExpr => [.sum, .sumProduct]
  | sumOp => [.add, .sub]
  | productExpr => [.product, .productUnary]
  | productOp => [.mul, .div, .mod]
  | unaryExpr => [.neg, .not_, .unaryPrimary]
  | primary => [.int, .str, .true_, .false_, .var, .parens,
      .length, .position, .concatenate, .substring, .readInt, .readStr]

/-- The rules of a phrase are exactly those with it on the left. -/
theorem Nonterminal.mem_rules_iff {n : Nonterminal} {r : Rule} :
    r ∈ n.rules ↔ r.lhs = n := by
  cases r <;> cases n <;> decide

namespace Rule

/-- A reserved word in a rule. -/
private abbrev word (w : Keyword) : Symbol := .terminal (.word w)

/-- A punctuation mark in a rule. -/
private abbrev mark (m : Mark) : Symbol := .terminal (.mark m)

/-- A phrase in a rule. -/
private abbrev phrase (n : Nonterminal) : Symbol := .nonterminal n

/-- The symbols that a rule puts together. -/
@[reducible]
def rhs : Rule → List Symbol
  | program => [phrase .stmtList]
  | noStmts => []
  | stmtsOnly => [phrase .stmts]
  | stmtsSemi => [phrase .stmts, mark .semi]
  | firstStmt => [phrase .stmt]
  | nextStmt => [phrase .stmts, mark .semi, phrase .stmt]
  | anyOpen => [phrase .openStmt]
  | anyClosed => [phrase .closedStmt]
  | simple => [phrase .simpleStmt]
  | ifElseClosed => [word .if_, phrase .expr, word .then_, phrase .closedStmt,
      word .else_, phrase .closedStmt]
  | forClosed => [word .for_, .terminal .name, mark .assign, phrase .expr, word .to_,
      phrase .expr, word .do_, phrase .closedStmt]
  | ifThen => [word .if_, phrase .expr, word .then_, phrase .stmt]
  | ifElseOpen => [word .if_, phrase .expr, word .then_, phrase .closedStmt,
      word .else_, phrase .openStmt]
  | forOpen => [word .for_, .terminal .name, mark .assign, phrase .expr, word .to_,
      phrase .expr, word .do_, phrase .openStmt]
  | assign => [.terminal .name, mark .assign, phrase .expr]
  | print => [word .print, mark .lparen, phrase .expr, mark .rparen]
  | block => [word .begin_, phrase .stmtList, word .end_]
  | break_ => [word .break_]
  | continue_ => [word .continue_]
  | exit_ => [word .exit_]
  | expr => [phrase .orExpr]
  | or_ => [phrase .orExpr, word .or_, phrase .andExpr]
  | orAnd => [phrase .andExpr]
  | and_ => [phrase .andExpr, word .and_, phrase .compareExpr]
  | andCompare => [phrase .compareExpr]
  | compare => [phrase .sumExpr, phrase .compareOp, phrase .sumExpr]
  | compareSum => [phrase .sumExpr]
  | eq => [mark .eq]
  | notEq => [mark .ltGt]
  | lt => [mark .lt]
  | gt => [mark .gt]
  | ltEq => [mark .ltEq]
  | gtEq => [mark .gtEq]
  | strEq => [mark .eqEq]
  | strNotEq => [mark .notEq]
  | sum => [phrase .sumExpr, phrase .sumOp, phrase .productExpr]
  | sumProduct => [phrase .productExpr]
  | add => [mark .plus]
  | sub => [mark .minus]
  | product => [phrase .productExpr, phrase .productOp, phrase .unaryExpr]
  | productUnary => [phrase .unaryExpr]
  | mul => [mark .star]
  | div => [mark .slash]
  | mod => [mark .percent]
  | neg => [mark .minus, phrase .unaryExpr]
  | not_ => [word .not_, phrase .unaryExpr]
  | unaryPrimary => [phrase .primary]
  | int => [.terminal .int]
  | str => [.terminal .str]
  | true_ => [word .true_]
  | false_ => [word .false_]
  | var => [.terminal .name]
  | parens => [mark .lparen, phrase .expr, mark .rparen]
  | length => [word .length, mark .lparen, phrase .expr, mark .rparen]
  | position => [word .position, mark .lparen, phrase .expr, mark .comma, phrase .expr,
      mark .rparen]
  | concatenate => [word .concatenate, mark .lparen, phrase .expr, mark .comma,
      phrase .expr, mark .rparen]
  | substring => [word .substring, mark .lparen, phrase .expr, mark .comma, phrase .expr,
      mark .comma, phrase .expr, mark .rparen]
  | readInt => [word .readint, mark .lparen, mark .rparen]
  | readStr => [word .readstr, mark .lparen, mark .rparen]

/-- The value that a rule builds from the values of its right side. `here` is the place
of the whole phrase. Nodes with an operator between two operands do not use it: their
span is the hull of the operands' spans. -/
def build : (r : Rule) → (here : Span) → Values r.rhs → r.lhs.Value
  | program, _, (body, _) => ⟨body⟩
  | noStmts, _, _ => []
  | stmtsOnly, _, (reversed, _) => reversed.reverse
  | stmtsSemi, _, (reversed, _, _) => reversed.reverse
  | firstStmt, _, (s, _) => [s]
  | nextStmt, _, (reversed, _, s, _) => s :: reversed
  | anyOpen, _, (s, _) => s
  | anyClosed, _, (s, _) => s
  | simple, _, (s, _) => s
  | ifElseClosed, here, (_, cond, _, yes, _, no, _) => .ifThenElse here cond yes no
  | forClosed, here, (_, x, _, first, _, last, _, body, _) => .forTo here x first last body
  | ifThen, here, (_, cond, _, yes, _) => .ifThen here cond yes
  | ifElseOpen, here, (_, cond, _, yes, _, no, _) => .ifThenElse here cond yes no
  | forOpen, here, (_, x, _, first, _, last, _, body, _) => .forTo here x first last body
  | assign, here, (x, _, e, _) => .assign here x e
  | print, here, (_, _, e, _, _) => .print here e
  | block, here, (_, body, _, _) => .block here body
  | break_, here, _ => .break_ here
  | continue_, here, _ => .continue_ here
  | exit_, here, _ => .exit_ here
  | expr, _, (e, _) => e
  | or_, _, (l, _, r, _) => .logic (l.span.merge r.span) l .or r
  | orAnd, _, (e, _) => e
  | and_, _, (l, _, r, _) => .logic (l.span.merge r.span) l .and r
  | andCompare, _, (e, _) => e
  | compare, _, (l, op, r, _) => .compare (l.span.merge r.span) l op r
  | compareSum, _, (e, _) => e
  | eq, _, _ => CompareOp.eq
  | notEq, _, _ => CompareOp.notEq
  | lt, _, _ => CompareOp.lt
  | gt, _, _ => CompareOp.gt
  | ltEq, _, _ => CompareOp.ltEq
  | gtEq, _, _ => CompareOp.gtEq
  | strEq, _, _ => CompareOp.strEq
  | strNotEq, _, _ => CompareOp.strNotEq
  | sum, _, (l, op, r, _) => .arith (l.span.merge r.span) l op r
  | sumProduct, _, (e, _) => e
  | add, _, _ => ArithOp.add
  | sub, _, _ => ArithOp.sub
  | product, _, (l, op, r, _) => .arith (l.span.merge r.span) l op r
  | productUnary, _, (e, _) => e
  | mul, _, _ => ArithOp.mul
  | div, _, _ => ArithOp.div
  | mod, _, _ => ArithOp.mod
  | neg, here, (_, e, _) => .unary here .neg e
  | not_, here, (_, e, _) => .unary here .not e
  | unaryPrimary, _, (e, _) => e
  | int, here, (n, _) => .int here n
  | str, here, (s, _) => .str here s
  | true_, here, _ => .bool here true
  | false_, here, _ => .bool here false
  | var, here, (x, _) => .var here x
  | parens, here, (_, e, _, _) => e.withSpan here
  | length, here, (_, _, e, _, _) => .length here e
  | position, here, (_, _, h, _, n, _, _) => .position here h n
  | concatenate, here, (_, _, l, _, r, _, _) => .concatenate here l r
  | substring, here, (_, _, t, _, b, _, n, _, _) => .substring here t b n
  | readInt, here, _ => .readInt here
  | readStr, here, _ => .readStr here

end Rule

end Scriptling

import Scriptling.Grammar.Rule

/-!
# What may come next

A parser that looks one token ahead sees a terminal or the end of the input
(`Lookahead`). Sets of them are bit masks: a terminal has the bit of its index, the end
of the input the bit behind the last terminal (`Lookahead.bit`). Masks make unions and
comparisons single operations on numbers, so that the automaton built on them can be
evaluated inside a proof.

`First` says of a phrase which terminals it can start with and whether it can be empty.
The table of all phrases (`firsts`) is the least solution of the grammar's equations,
found by repeating them until nothing changes (`settle`).
-/

namespace Scriptling

/-- Repeats a step until it changes nothing, at most `fuel` times. -/
def settle {α : Type} [BEq α] (step : α → α) : (fuel : Nat) → α → α
  | 0, a => a
  | fuel + 1, a =>
    let b := step a
    if b == a then a else settle step fuel b

/-- What is seen ahead: a terminal, or the end of the input. -/
abbrev Lookahead := Option Terminal

/-- The bit that stands for a lookahead. -/
def Lookahead.bit : Lookahead → Nat
  | some t => t.index
  | none => 44

/-- A set of lookaheads. -/
structure Lookaheads where
  /-- the bits of the members -/
  mask : Nat
deriving DecidableEq, Repr

namespace Lookaheads

/-- The set without members. -/
def empty : Lookaheads := ⟨0⟩

/-- The set of one member. -/
def single (a : Lookahead) : Lookaheads := ⟨1 <<< a.bit⟩

/-- The members of either set. -/
def union (s t : Lookaheads) : Lookaheads := ⟨s.mask ||| t.mask⟩

/-- Whether the lookahead is a member. -/
def contains (s : Lookaheads) (a : Lookahead) : Bool := s.mask.testBit a.bit

/-- Whether there is no member. -/
def isEmpty (s : Lookaheads) : Bool := s.mask == 0

/-- Whether all members are members of the other set. -/
def subset (s t : Lookaheads) : Bool := (s.mask ||| t.mask) == t.mask

end Lookaheads

/-- What a phrase can start with, and whether it can be empty. -/
structure First where
  /-- the terminals that can come first -/
  starts : Lookaheads
  /-- whether the phrase can have no token -/
  nullable : Bool
deriving DecidableEq, Repr

/-- A `First` for each nonterminal, by its place in the declaration. -/
abbrev FirstTable := List First

/-- All nonterminals, in the order of their declaration. -/
def Nonterminal.all : List Nonterminal :=
  [program, stmtList, stmts, stmt, closedStmt, openStmt, simpleStmt, expr, orExpr, andExpr,
    compareExpr, compareOp, sumExpr, sumOp, productExpr, productOp, unaryExpr, primary]

namespace FirstTable

/-- The entry of a nonterminal. -/
def of (table : FirstTable) (n : Nonterminal) : First :=
  table.getD n.ctorIdx ⟨.empty, false⟩

/-- What can come first in a row of symbols that is followed by one of `after`. -/
def ahead (table : FirstTable) : List Symbol → (after : Lookaheads) → Lookaheads
  | [], after => after
  | .terminal t :: _, _ => .single (some t)
  | .nonterminal n :: rest, after =>
    let f := table.of n
    if f.nullable then f.starts.union (table.ahead rest after) else f.starts

/-- Whether a row of symbols can be empty. -/
def rowNullable (table : FirstTable) : List Symbol → Bool
  | [] => true
  | .terminal _ :: _ => false
  | .nonterminal n :: rest => (table.of n).nullable && table.rowNullable rest

/-- What the rules of a phrase say about it, given a table for the phrases inside. -/
def ofRules (table : FirstTable) (n : Nonterminal) : First where
  starts := n.rules.foldl (fun s r => s.union (table.ahead r.rhs .empty)) .empty
  nullable := n.rules.any fun r => table.rowNullable r.rhs

/-- One use of all rules. -/
def refine (table : FirstTable) : FirstTable :=
  Nonterminal.all.map table.ofRules

end FirstTable

/-- What each phrase of the grammar can start with. -/
def firsts : FirstTable :=
  settle FirstTable.refine 32 (Nonterminal.all.map fun _ => ⟨.empty, false⟩)

end Scriptling

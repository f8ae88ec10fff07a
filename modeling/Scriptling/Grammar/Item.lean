import Scriptling.Grammar.Lookahead

/-!
# Rules in progress

An *item* is a rule that may be in progress at some place of the input: the rule, the
symbols of its right side that are still to be seen, and the lookaheads that may follow
the finished phrase.

The items that a symbol has just brought one further are a *kernel*. Where an item waits
for a phrase, the rules of that phrase may start, and so on: the items so added make up
the *closure* of the kernel. All rules of one phrase start under the same lookaheads, so
the closure is found as one set of lookaheads for each phrase (`Expectations`).
-/

namespace Scriptling

/-- A number for each symbol. -/
def Symbol.code : Symbol → Nat
  | terminal t => t.index
  | nonterminal n => 64 + n.ctorIdx

/-- A rule that may be in progress. -/
structure Item where
  /-- the rule -/
  rule : Rule
  /-- the symbols of its right side that are still to be seen -/
  rest : List Symbol
  /-- what may follow the phrase -/
  ahead : Lookaheads
deriving DecidableEq, Repr

namespace Item

/-- A rule of which nothing has been seen. -/
def fresh (r : Rule) (ahead : Lookaheads) : Item := ⟨r, r.rhs, ahead⟩

/-- A number for the rule and how far it has come. No rule has sixteen symbols. -/
def code (i : Item) : Nat := 16 * i.rule.ctorIdx + i.rest.length

/-- One symbol further. -/
def advance (i : Item) : Item := { i with rest := i.rest.tail }

end Item

/-- The rules of a phrase that start with a phrase, each as that phrase and what follows
it. -/
def Nonterminal.leads (n : Nonterminal) : List (Nonterminal × List Symbol) :=
  n.rules.filterMap fun r =>
    match r.rhs with
    | .nonterminal m :: more => some (m, more)
    | _ => none

/-- The items a state is reached with, in the order of their codes. -/
abbrev Kernel := List Item

/-- For each nonterminal, what may follow it where the state expects it; nothing where
the state does not expect it. The sets stand side by side in one number, 48 bits for
each. -/
structure Expectations where
  /-- the masks of all sets -/
  bits : Nat
deriving DecidableEq

namespace Expectations

/-- What may follow a nonterminal. -/
def get (table : Expectations) (n : Nonterminal) : Lookaheads :=
  ⟨(table.bits >>> (48 * n.ctorIdx)) &&& 0xFFFFFFFFFFFF⟩

/-- Adds to what may follow a nonterminal. -/
def add (table : Expectations) (n : Nonterminal) (s : Lookaheads) : Expectations :=
  ⟨table.bits ||| (s.mask <<< (48 * n.ctorIdx))⟩

/-- An item that waits for a nonterminal makes the state expect it. -/
def addItem (table : Expectations) (i : Item) : Expectations :=
  match i.rest with
  | .nonterminal n :: more => table.add n (firsts.ahead more i.ahead)
  | _ => table

/-- A rule of an expected nonterminal that starts with another one makes the state expect
that one too. -/
def addLead (n : Nonterminal) (table : Expectations) (lead : Nonterminal × List Symbol) :
    Expectations :=
  table.add lead.1 (firsts.ahead lead.2 (table.get n))

/-- One pass through the nonterminals, each with all that is known when its turn
comes. -/
def pass (table : Expectations) : Expectations :=
  Nonterminal.all.foldl (fun t n =>
    bif (t.get n).isEmpty then t else n.leads.foldl (addLead n) t) table

/-- All that a state with this kernel expects. -/
def ofKernel (kernel : Kernel) : Expectations :=
  settle pass 32 (kernel.foldl addItem ⟨0⟩)

/-- The items at the start of a rule of `n`, if the state expects `n`. -/
def fresh (table : Expectations) (n : Nonterminal) : List Item :=
  let s := table.get n
  bif s.isEmpty then [] else n.rules.map fun r => .fresh r s

end Expectations

namespace Kernel

/-- The set of the codes of the items. -/
def core (kernel : Kernel) : Nat :=
  kernel.foldl (fun m i => m ||| 1 <<< i.code) 0

/-- The kernel and the items at the start of every rule that it leads to. -/
def closure (kernel : Kernel) : List Item :=
  kernel ++ Nonterminal.all.flatMap (Expectations.ofKernel kernel).fresh

/-- Adds an item at its place in the order. -/
def insert (i : Item) : Kernel → Kernel
  | [] => [i]
  | j :: rest => bif Nat.ble i.code j.code then i :: j :: rest else j :: insert i rest

/-- Whether a kernel with the same core has all lookaheads that this one has. -/
def within : Kernel → Kernel → Bool
  | i :: a, j :: b => i.ahead.subset j.ahead && within a b
  | _, _ => true

/-- The lookaheads of two kernels with the same core, united. -/
def join (a b : Kernel) : Kernel :=
  List.zipWith (fun i j => { i with ahead := i.ahead.union j.ahead }) a b

/-- Adds an item to the kernel that belongs to a symbol. -/
def place (s : Symbol) (i : Item) : List (Symbol × Kernel) → List (Symbol × Kernel)
  | [] => [(s, [i])]
  | (s', k) :: out =>
    bif Nat.beq s.code s'.code then (s', k.insert i) :: out else (s', k) :: place s i out

/-- The kernels that a state leads to, each with its symbol: every item that waits for
the symbol goes one further. -/
def successors (items : List Item) : List (Symbol × Kernel) :=
  items.foldl (fun out i =>
    match i.rest with
    | [] => out
    | s :: _ => place s i.advance out) []

end Kernel

end Scriptling

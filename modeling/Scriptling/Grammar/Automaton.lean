import Scriptling.Grammar.Item

/-!
# The automaton of the grammar

The parser is steered by an automaton whose states say how far each rule that may be in
progress has come. A state is a list of items together with an edge for every symbol that
some item waits for.

The automaton is computed from the grammar. A state is identified by which rules have
come how far in it (`Kernel.core`), without the lookaheads; when a state is reached again
with further lookaheads they are added to it and its successors are visited again
(`Reached.visit`). So a state has the lookaheads of all ways that lead to it. An empty
state is added behind the others, for the whole program (`Automaton.ofGrammar`).
-/

namespace Scriptling

/-- A kernel that was reached, with its core and a flag that is set while its
successors have not been visited since its last change. -/
structure Reached where
  /-- the core of the kernel -/
  core : Nat
  /-- the kernel -/
  kernel : Kernel
  /-- whether the successors are still to be visited -/
  pending : Bool

namespace Reached

/-- Adds a kernel to those reached: as a new one behind the others, or united with the
one of the same core. -/
def absorb (core : Nat) (kernel : Kernel) : List Reached → List Reached
  | [] => [⟨core, kernel, true⟩]
  | f :: fs =>
    bif Nat.beq f.core core then
      (bif kernel.within f.kernel then f else ⟨core, f.kernel.join kernel, true⟩) :: fs
    else f :: absorb core kernel fs

/-- Takes the first pending kernel and marks it as done. -/
def next? : List Reached → Option (Kernel × List Reached)
  | [] => none
  | f :: fs =>
    bif f.pending then some (f.kernel, { f with pending := false } :: fs)
    else (next? fs).map fun (k, fs) => (k, f :: fs)

/-- Visits pending kernels until none is left, at most `fuel` of them. -/
def visit : (fuel : Nat) → List Reached → List Reached
  | 0, fs => fs
  | fuel + 1, fs =>
    match next? fs with
    | none => fs
    | some (k, fs) =>
      visit fuel ((Kernel.successors k.closure).foldl (fun fs (_, k) => absorb k.core k fs) fs)

/-- All kernels that can be reached from one. -/
def allFrom (kernel : Kernel) : List Reached :=
  visit 4096 [⟨kernel.core, kernel, true⟩]

end Reached

/-- A state of the automaton. -/
structure State where
  /-- the rules that may be in progress -/
  items : List Item
  /-- the state behind each symbol that may come next -/
  edges : List (Symbol × Nat)

namespace State

/-- The state of a kernel, given all kernels that were reached. -/
def ofKernel (reached : List Reached) (kernel : Kernel) : State :=
  let items := kernel.closure
  { items
    edges := (Kernel.successors items).map fun (s, k) =>
      (s, reached.findIdx fun f => Nat.beq f.core k.core) }

/-- The state behind a symbol. -/
def target? (q : State) (s : Symbol) : Option Nat :=
  q.edges.lookup s

/-- The rule that is finished where this lookahead follows. -/
def finished? (q : State) (a : Lookahead) : Option Rule :=
  (q.items.find? fun i => i.rest.isEmpty && i.ahead.contains a).map (·.rule)

end State

/-- The states by number. The initial state is number 0. -/
abbrev Automaton := Array State

namespace Automaton

/-- The automaton of the grammar. Behind the states of the kernels stands one more,
without items, that the initial state leads to with the whole program. -/
def ofGrammar : Automaton :=
  let reached := Reached.allFrom [.fresh .program (.single none)]
  let states := reached.map fun f => State.ofKernel reached f.kernel
  match states with
  | [] => #[]
  | q :: qs =>
    let first : State :=
      { q with edges := q.edges ++ [(.nonterminal .program, states.length)] }
    let last : State := ⟨[], []⟩
    (first :: qs ++ [last]).toArray

/-- The state with a number; behind the last one, a state in which nothing can happen. -/
def state (a : Automaton) (q : Nat) : State :=
  a.getD q ⟨[], []⟩

end Automaton

end Scriptling

import Scriptling.Interpreter.Eval

/-!
# Execution of statements

A *machine* holds the scopes, the input and the output. Executing a statement changes it
and says how to go on (`Flow`), or fails; a failure leaves the machine as it was when the
fault came up, except that the frames of blocks that are left are gone (`inFrame`).

What a statement does (`work`) brings up errors that have no span at first. Every statement
that is being executed puts its own span on the errors that come out of it, be they its own
or those of a statement in it, but only on errors without a span (`Exec.located`). So an
error goes out through all statements around its origin and keeps the span of the innermost
one.

A loop evaluates its bounds once, and then binds its variable to every integer from the
first bound to the last one, in order, whatever its body does to the variables (`rounds`).

When a program is done, by whatever way, the output is flushed. A fault of the program
counts more than one of the flush (`followedBy`).
-/

namespace Scriptling

/-- The state of a run. -/
structure Machine (ι ο : Type) where
  /-- the variables -/
  scopes : Scopes
  /-- the lines still to be read -/
  input : ι
  /-- what was written -/
  output : ο

/-- A computation that may change the machine and may fail. -/
abbrev Exec (ι ο α : Type) := ExceptT RunError (StateM (Machine ι ο)) α

/-- How to go on after a statement. -/
inductive Flow
  /-- with the next statement -/
  | normal
  /-- with the next round of the innermost loop, or behind it -/
  | jump (j : LoopJump)
  /-- not at all: the program is done -/
  | exit
deriving DecidableEq, Repr

/-- How a run without failure ended. -/
inductive Outcome
  /-- all statements were executed -/
  | completed
  /-- an `exit` was executed -/
  | exited
deriving DecidableEq, Repr

/-- Two computations in order, of which the second is run even if the first failed. If both
fail, the error is that of the first. -/
def followedBy {ε σ α : Type} (x : ExceptT ε (StateM σ) α) (y : ExceptT ε (StateM σ) Unit) :
    ExceptT ε (StateM σ) α := ExceptT.mk fun s =>
  let (r, s) := x.run s
  let (r', s) := y.run s
  (r <* r', s)

namespace Exec

variable {ι ο : Type}

/-- A computation as one of the statement at `span`: its errors get this span, unless they
have one. -/
def located {α : Type} (span : Span) (x : Exec ι ο α) : Exec ι ο α :=
  x.adapt (RunError.locate span)

/-- A result that does not touch the machine. -/
def require {α : Type} (r : Except Fault α) : Exec ι ο α := ExceptT.mk fun m =>
  match r with
  | .ok a => (.ok a, m)
  | .error f => (.error ⟨f, none⟩, m)

/-- The value of an expression. -/
def evaluate [LineSource ι] (e : Expr) : Exec ι ο Value := ExceptT.mk fun m =>
  match (eval m.scopes e).run m.input with
  | (.ok v, input) => (.ok v, { m with input })
  | (.error f, input) => (.error ⟨f, none⟩, { m with input })

/-- Stores a value in a variable. -/
def store (name : String) (v : Value) : Exec ι ο Unit := ExceptT.mk fun m =>
  match m.scopes.assign name v with
  | .ok scopes => (.ok (), { m with scopes })
  | .error f => (.error ⟨f, none⟩, m)

/-- Writes a line. -/
def write [LineSink ο] (line : String) : Exec ι ο Unit := ExceptT.mk fun m =>
  match LineSink.write m.output line with
  | (.ok (), output) => (.ok (), { m with output })
  | (.error why, output) => (.error ⟨.unwritable why, none⟩, { m with output })

/-- Flushes the output. -/
def flush [LineSink ο] : Exec ι ο Unit := ExceptT.mk fun m =>
  match LineSink.flush m.output with
  | (.ok (), output) => (.ok (), { m with output })
  | (.error why, output) => (.error ⟨.unwritable why, none⟩, { m with output })

/-- Runs a computation in a new innermost frame, which is gone afterwards on all paths. -/
def inFrame {α : Type} (x : Exec ι ο α) : Exec ι ο α := ExceptT.mk fun m =>
  let (r, m) := x.run { m with scopes := m.scopes.push }
  (r, { m with scopes := m.scopes.pop })

/-- The rounds of a loop for `count` integers from `i` on. -/
def rounds (round : Int64 → Exec ι ο Flow) : (i : Int64) → (count : Nat) → Exec ι ο Flow
  | _, 0 => return .normal
  | i, count + 1 => do
    match ← round i with
    | .normal | .jump .continue_ => rounds round (i + 1) count
    | .jump .break_ => return .normal
    | .exit => return .exit

/-- How many integers there are from `first` to `last`. -/
def roundCount (first last : Int64) : Nat :=
  (last.toInt - first.toInt + 1).toNat

end Exec

section

variable {ι ο : Type} [LineSource ι] [LineSink ο]

open Exec

mutual

/-- What a statement does. The statements in it put their spans on their errors. -/
def work : Stmt → Exec ι ο Flow
  | .assign _ x e => do
    let v ← evaluate e
    require (if v.storable then .ok () else .error (.notStorable v.kind))
    store x v
    return .normal
  | .print _ e => do
    let v ← evaluate e
    write v.text
    return .normal
  | .ifThen _ cond yes => do
    let v ← evaluate cond
    if ← require v.asBool then located yes.span (work yes) else return .normal
  | .ifThenElse _ cond yes no => do
    let v ← evaluate cond
    if ← require v.asBool then located yes.span (work yes) else located no.span (work no)
  | .forTo _ x first last body => do
    let a ← evaluate first
    let b ← evaluate last
    let a ← require a.asInt
    let b ← require b.asInt
    let round := fun i => do
      store x (.int i)
      located body.span (work body)
    rounds round a (roundCount a b)
  | .block _ body => inFrame (execAll body)
  | .break_ _ => return .jump .break_
  | .continue_ _ => return .jump .continue_
  | .exit_ _ => return .exit

/-- Executes statements in order, up to the first one that does not go on normally. -/
def execAll : List Stmt → Exec ι ο Flow
  | [] => return .normal
  | s :: rest => do
    match ← located s.span (work s) with
    | .normal => execAll rest
    | flow => return flow

end

/-- Executes a statement, and puts its span on the errors that have none. -/
def exec (s : Stmt) : Exec ι ο Flow :=
  located s.span (work s)

/-- Runs the statements of a program. A jump that no loop took is a fault of the outermost
statement it came from. -/
def runAll : List Stmt → Exec ι ο Outcome
  | [] => return .completed
  | s :: rest => do
    match ← exec s with
    | .normal => runAll rest
    | .exit => return .exited
    | .jump j => throw (RunError.locate s.span ⟨.strayControl j, none⟩)

/-- Runs a program. The output is flushed on all paths. -/
def Program.run (p : Program) : Exec ι ο Outcome :=
  followedBy (runAll p.body) flush

/-- Evaluates an expression by itself; a fault is one of the expression. -/
def evalAlone (e : Expr) : Exec ι ο Value :=
  located e.span (evaluate e)

end

namespace Machine

variable {ι ο : Type}

/-- A machine without variables. -/
def start (input : ι) (output : ο) (listing : Listing := .byName) : Machine ι ο :=
  ⟨.empty listing, input, output⟩

/-- Forgets all variables and keeps input and output. -/
def reset (m : Machine ι ο) : Machine ι ο := { m with scopes := m.scopes.reset }

end Machine

end Scriptling

import Scriptling.Interpreter.Exec

/-!
# Execution on a single environment

A second account of what programs do, without frames: the variables are one finite map from
names to values. A variable is read from the map. An assignment and every round of a loop
change the map at one name, after the same checks of kinds. A block runs on the map as it
is, and when it is left, by whatever way, the map that was there when it was entered is put
back (`Flat.restoring`).

Expressions depend on the variables only through looking up names (`evalBy`).
-/

namespace Scriptling

section

variable {ι : Type} [LineSource ι]

/-- The value of an expression, given a way to look up names. -/
def evalBy (look : String → Except Fault Value) : Expr → Eval ι Value
  | .int _ n => return .int n
  | .str _ s => return .str s
  | .bool _ b => return .bool b
  | .var _ x => look x
  | .arith _ left op right => do
    let a ← evalBy look left
    let b ← evalBy look right
    op.onValues a b
  | .compare _ left op right => do
    let a ← evalBy look left
    let b ← evalBy look right
    op.onValues a b
  | .logic _ left op right => do
    let a ← (← evalBy look left).asBool
    match op.decided? a with
    | some r => return .bool r
    | none =>
      let b ← (← evalBy look right).asBool
      return .bool b
  | .unary _ op operand => do
    let a ← evalBy look operand
    op.onValue a
  | .length _ text => do
    let s ← (← evalBy look text).asStr
    return .int (Strings.length s)
  | .position _ haystack needle => do
    let a ← evalBy look haystack
    let b ← evalBy look needle
    let s ← a.asStr
    let sub ← b.asStr
    return .int (Strings.position s sub)
  | .concatenate _ left right => do
    let a ← evalBy look left
    let b ← evalBy look right
    let s ← a.asStr
    let t ← b.asStr
    return .str (s ++ t)
  | .substring _ text start len => do
    let a ← evalBy look text
    let b ← evalBy look start
    let c ← evalBy look len
    let s ← a.asStr
    let i ← b.asInt
    let n ← c.asInt
    return .str (Strings.substring s i n)
  | .readInt _ => do
    let line ← readLine
    integerOfLine line
  | .readStr _ => do
    let line ← readLine
    return stringOfLine line

end

/-- The state of a run on a single environment. -/
structure FlatMachine (ι ο : Type) where
  /-- the variables -/
  env : Frame
  /-- the lines still to be read -/
  input : ι
  /-- what was written -/
  output : ο

/-- A computation on a single environment. -/
abbrev FlatExec (ι ο α : Type) := ExceptT RunError (StateM (FlatMachine ι ο)) α

namespace Flat

/-! ## Actions -/

/-- The value of a name in the environment. -/
def lookup (env : Frame) (x : String) : Except Fault Value :=
  match env[x]? with
  | some v => .ok v
  | none => .error (.undefinedVariable x none)

section

variable {ι ο α : Type}

/-- A result that does not touch the machine. -/
def require (span : Span) (r : Except Fault α) : FlatExec ι ο α := ExceptT.mk fun m =>
  match r with
  | .ok a => (.ok a, m)
  | .error f => (.error ⟨f, span⟩, m)

/-- The value of an expression. -/
def evaluate [LineSource ι] (span : Span) (e : Expr) : FlatExec ι ο Value := ExceptT.mk fun m =>
  match (evalBy (lookup m.env) e).run m.input with
  | (.ok v, input) => (.ok v, { m with input })
  | (.error f, input) => (.error ⟨f, span⟩, { m with input })

/-- Changes the environment at a name, unless it has a value of another kind there. -/
def store (span : Span) (x : String) (v : Value) : FlatExec ι ο Unit := ExceptT.mk fun m =>
  match m.env[x]? with
  | some old =>
    if old.kind = v.kind then (.ok (), { m with env := m.env.insert x v })
    else (.error ⟨.typeConflict x old.kind v.kind, span⟩, m)
  | none => (.ok (), { m with env := m.env.insert x v })

/-- Writes a line. -/
def write [LineSink ο] (span : Span) (line : String) : FlatExec ι ο Unit := ExceptT.mk fun m =>
  match LineSink.write m.output line with
  | (.ok (), output) => (.ok (), { m with output })
  | (.error why, output) => (.error ⟨.unwritable why, span⟩, { m with output })

/-- Flushes the output. -/
def flush [LineSink ο] : FlatExec ι ο Unit := ExceptT.mk fun m =>
  match LineSink.flush m.output with
  | (.ok (), output) => (.ok (), { m with output })
  | (.error why, output) => (.error ⟨.unwritable why, none⟩, { m with output })

/-- Runs a computation and then puts the environment back, on all paths. -/
def restoring (x : FlatExec ι ο α) : FlatExec ι ο α := ExceptT.mk fun m =>
  let (r, after) := x.run m
  (r, { after with env := m.env })

/-- The rounds of a loop for `count` integers from `i` on. -/
def rounds (round : Int64 → FlatExec ι ο Flow) : (i : Int64) → (count : Nat) → FlatExec ι ο Flow
  | _, 0 => return .normal
  | i, count + 1 => do
    match ← round i with
    | .normal | .jump .continue_ => rounds round (i + 1) count
    | .jump .break_ => return .normal
    | .exit => return .exit

end

/-! ## Statements and programs -/

variable {ι ο : Type} [LineSource ι] [LineSink ο]

mutual

/-- Executes a statement. -/
def exec : Stmt → FlatExec ι ο Flow
  | .assign span x e => do
    let v ← evaluate span e
    require span (if v.storable then .ok () else .error (.notStorable v.kind))
    store span x v
    return .normal
  | .print span e => do
    let v ← evaluate span e
    write span v.text
    return .normal
  | .ifThen span cond yes => do
    let v ← evaluate span cond
    if ← require span v.asBool then exec yes else return .normal
  | .ifThenElse span cond yes no => do
    let v ← evaluate span cond
    if ← require span v.asBool then exec yes else exec no
  | .forTo span x first last body => do
    let a ← evaluate span first
    let b ← evaluate span last
    let a ← require span a.asInt
    let b ← require span b.asInt
    let round := fun i => do
      store span x (.int i)
      exec body
    rounds round a (Exec.roundCount a b)
  | .block _ body => restoring (execAll body)
  | .break_ _ => return .jump .break_
  | .continue_ _ => return .jump .continue_
  | .exit_ _ => return .exit

/-- Executes statements in order, up to the first one that does not go on normally. -/
def execAll : List Stmt → FlatExec ι ο Flow
  | [] => return .normal
  | s :: rest => do
    match ← exec s with
    | .normal => execAll rest
    | flow => return flow

end

/-- Runs the statements of a program. -/
def runAll : List Stmt → FlatExec ι ο Outcome
  | [] => return .completed
  | s :: rest => do
    match ← exec s with
    | .normal => runAll rest
    | .exit => return .exited
    | .jump j => throw ⟨.strayControl j, s.span⟩

/-- Runs a program and flushes the output. -/
def run (p : Program) : FlatExec ι ο Outcome :=
  followedBy (runAll p.body) flush

end Flat

end Scriptling

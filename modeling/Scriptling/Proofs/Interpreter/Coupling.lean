import Scriptling.Proofs.Interpreter.Simulation
import Scriptling.Proofs.Syntax.Relocation

/-!
# Two runs of one text

One program can be run twice: on machines that differ, or after its text was moved to other
places. What the two runs have in common is a relation between computations. If it holds of the
actions of a statement (evaluating an expression, storing a variable, writing a line) and is
carried on by sequences and frames, then it holds of the two runs of every text
(`Exec.Comparison`). The second run is that of the relocated text. A run of the same text is the
case that no offset is moved.

Often the relation is that the two computations lead from related machines to related machines.
What relates the machines, and what relates the errors, is left open (`Exec.Coupling`).
-/

namespace Scriptling

namespace Exec

variable {ι ο ι' ο' : Type} [LineSource ι] [LineSink ο] [LineSource ι'] [LineSink ο']

/-! ## Comparisons -/

/-- A relation between computations that holds of the actions of statements in which only names
of `N` occur, and of the same actions moved by `g`, and that is carried on by sequences and
frames. -/
structure Comparison (g : Nat → Nat) (N : String → Prop)
    (P : ∀ {α : Type}, Exec ι ο α → Exec ι' ο' α → Prop) : Prop where
  /-- a value -/
  pure {α : Type} (a : α) : P (pure a) (pure a)
  /-- one step and what follows it -/
  bind {α β : Type} {x : Exec ι ο α} {y : Exec ι' ο' α} {f : α → Exec ι ο β}
    {f' : α → Exec ι' ο' β} : P x y → (∀ a, P (f a) (f' a)) → P (x >>= f) (y >>= f')
  /-- a result that does not touch the machine -/
  require {α : Type} (r : Except Fault α) : P (require r) (require r)
  /-- evaluating an expression -/
  evaluate (e : Expr) : (∀ y ∈ e.names, N y) → P (evaluate e) (evaluate (e.relocate g))
  /-- storing a variable -/
  store {y : String} (v : Value) : N y → P (store y v) (store y v)
  /-- writing a line -/
  write (line : String) : P (write line) (write line)
  /-- putting the span of a statement on the errors -/
  located {α : Type} (span : Span) {x : Exec ι ο α} {y : Exec ι' ο' α} :
    P x y → P (located span x) (located (span.relocate g) y)
  /-- running statements in a frame of their own -/
  inFrame {x : Exec ι ο Flow} {y : Exec ι' ο' Flow} : P x y → P (inFrame x) (inFrame y)
  /-- flushing the output at the end -/
  flushed {x : Exec ι ο Outcome} {y : Exec ι' ο' Outcome} :
    P x y → P (followedBy x flush) (followedBy y flush)

namespace Comparison

variable {g : Nat → Nat} {N : String → Prop}
  {P : ∀ {α : Type}, Exec ι ο α → Exec ι' ο' α → Prop}

/-- Loops can be compared if their rounds can. -/
theorem rounds (c : Comparison g N P) {round : Int64 → Exec ι ο Flow}
    {round' : Int64 → Exec ι' ο' Flow} (hround : ∀ i, P (round i) (round' i)) (i : Int64)
    (count : Nat) : P (rounds round i count) (rounds round' i count) := by
  induction count generalizing i with
  | zero => exact c.pure _
  | succ count ih =>
    refine c.bind (hround i) fun flow => ?_
    match flow with
    | .normal | .jump .continue_ => exact ih (i + 1)
    | .jump .break_ | .exit => exact c.pure _

/-- Choices can be compared if their branches can. -/
theorem choice (c : Comparison g N P) (span : Span) {cond : Expr} (hcond : ∀ y ∈ cond.names, N y)
    {yes no : Exec ι ο Flow} {yes' no' : Exec ι' ο' Flow} (hyes : P yes yes') (hno : P no no') :
    P
      (do
        let v ← Exec.located span (Exec.evaluate cond)
        if ← Exec.located span (Exec.require v.asBool) then yes else no)
      (do
        let v ← Exec.located (span.relocate g) (Exec.evaluate (cond.relocate g))
        if ← Exec.located (span.relocate g) (Exec.require v.asBool) then yes' else no') := by
  refine c.bind (c.located span (c.evaluate cond hcond)) fun v => ?_
  refine c.bind (c.located span (c.require v.asBool)) fun b => ?_
  cases b
  · exact hno
  · exact hyes

mutual

/-- **The two runs of a statement can be compared.** -/
theorem exec (c : Comparison g N P) :
    ∀ s : Stmt, (∀ y ∈ s.names, N y) →
      P (exec s : Exec ι ο Flow) (exec (s.relocate g) : Exec ι' ο' Flow)
  | .assign span x e, h => by
    obtain ⟨hx, he⟩ := List.forall_mem_cons.mp h
    rw [Stmt.relocate, exec_assign, exec_assign]
    refine c.bind (c.located span (c.evaluate e he)) fun v => ?_
    refine c.bind (c.located span (c.require _)) fun _ => ?_
    exact c.bind (c.located span (c.store v hx)) fun _ => c.pure _
  | .print span e, h => by
    rw [Stmt.relocate, exec_print, exec_print]
    refine c.bind (c.located span (c.evaluate e h)) fun v => ?_
    exact c.bind (c.located span (c.write v.text)) fun _ => c.pure _
  | .ifThen span cond yes, h => by
    obtain ⟨hcond, hyes⟩ := List.forall_mem_append.mp h
    rw [Stmt.relocate, exec_ifThen, exec_ifThen]
    exact c.choice span hcond (c.exec yes hyes) (c.pure _)
  | .ifThenElse span cond yes no, h => by
    obtain ⟨hfirst, hno⟩ := List.forall_mem_append.mp h
    obtain ⟨hcond, hyes⟩ := List.forall_mem_append.mp hfirst
    rw [Stmt.relocate, exec_ifThenElse, exec_ifThenElse]
    exact c.choice span hcond (c.exec yes hyes) (c.exec no hno)
  | .forTo span x first last body, h => by
    obtain ⟨hx, hrest⟩ := List.forall_mem_cons.mp h
    obtain ⟨hbounds, hbody⟩ := List.forall_mem_append.mp hrest
    obtain ⟨hfirst, hlast⟩ := List.forall_mem_append.mp hbounds
    rw [Stmt.relocate, exec_forTo, exec_forTo]
    refine c.bind (c.located span (c.evaluate first hfirst)) fun a => ?_
    refine c.bind (c.located span (c.evaluate last hlast)) fun b => ?_
    refine c.bind (c.located span (c.require a.asInt)) fun a => ?_
    refine c.bind (c.located span (c.require b.asInt)) fun b => ?_
    refine c.rounds (fun i => ?_) a (roundCount a b)
    exact c.bind (c.located span (c.store (.int i) hx)) fun _ => c.exec body hbody
  | .block span body, h => by
    rw [Stmt.relocate, Stmt.relocateAll_eq_map, exec_block, exec_block]
    exact c.inFrame (c.execAll body h)
  | .break_ span, _ => by
    rw [Stmt.relocate, exec_break, exec_break]
    exact c.pure _
  | .continue_ span, _ => by
    rw [Stmt.relocate, exec_continue, exec_continue]
    exact c.pure _
  | .exit_ span, _ => by
    rw [Stmt.relocate, exec_exit, exec_exit]
    exact c.pure _

theorem execAll (c : Comparison g N P) :
    ∀ body : List Stmt, (∀ y ∈ Stmt.namesAll body, N y) →
      P (execAll body : Exec ι ο Flow) (execAll (body.map (Stmt.relocate g)) : Exec ι' ο' Flow)
  | [], _ => by
    rw [List.map_nil, execAll_nil, execAll_nil]
    exact c.pure _
  | s :: rest, h => by
    obtain ⟨hs, hrest⟩ := List.forall_mem_append.mp h
    rw [List.map_cons, execAll_cons, execAll_cons]
    refine c.bind (c.exec s hs) fun flow => ?_
    match flow with
    | .normal => exact c.execAll rest hrest
    | .jump _ | .exit => exact c.pure _

end

theorem runAll (c : Comparison g N P) (body : List Stmt)
    (h : ∀ y ∈ Stmt.namesAll body, N y) :
    P (runAll body : Exec ι ο Outcome)
      (runAll (body.map (Stmt.relocate g)) : Exec ι' ο' Outcome) := by
  induction body with
  | nil => exact c.pure _
  | cons s rest ih =>
    obtain ⟨hs, hrest⟩ := List.forall_mem_append.mp h
    refine c.bind (c.exec s hs) fun flow => ?_
    match flow with
    | .normal => exact ih hrest
    | .exit => exact c.pure _
    | .jump j =>
      rw [Stmt.span_relocate]
      exact c.located s.span (c.require (.error (.strayControl j)))

/-- **The two runs of a program can be compared.** -/
theorem run (c : Comparison g N P) {p : Program} (h : ∀ y ∈ p.names, N y) :
    P (p.run : Exec ι ο Outcome) ((p.relocate g).run : Exec ι' ο' Outcome) :=
  c.flushed (c.runAll p.body h)

end Comparison

/-! ## Couplings -/

/-- The actions of a statement, and those of the statement moved by `g`, lead from machines
related by `R` to machines related by `R`, and to errors related by `E`. -/
structure Coupling (g : Nat → Nat) (R : Machine ι ο → Machine ι' ο' → Prop)
    (E : RunError → RunError → Prop) : Prop where
  /-- the same fault, at no place -/
  fault (f : Fault) : E ⟨f, none⟩ ⟨f, none⟩
  /-- putting the span of a statement on the errors -/
  locate (span : Span) {e e' : RunError} : E e e' → E (e.locate span) (e'.locate (span.relocate g))
  /-- evaluating an expression -/
  evaluate (e : Expr) : Simulates R E (evaluate e) (evaluate (e.relocate g))
  /-- storing a variable -/
  store (x : String) (v : Value) : Simulates R E (store x v) (store x v)
  /-- writing a line -/
  write (line : String) : Simulates R E (write line) (write line)
  /-- flushing the output -/
  flush : Simulates R E flush flush
  /-- running statements in a frame of their own -/
  inFrame {x : Exec ι ο Flow} {y : Exec ι' ο' Flow} :
    Simulates R E x y → Simulates R E (inFrame x) (inFrame y)

namespace Coupling

variable {g : Nat → Nat} {R : Machine ι ο → Machine ι' ο' → Prop} {E : RunError → RunError → Prop}

/-- A coupling is a comparison, whatever the names are. -/
theorem comparison (c : Coupling g R E) :
    Comparison g (fun _ => True) (fun x y => Simulates R E x y) where
  pure := .pure
  bind := .bind
  require r := by
    intro m m' h
    cases r with
    | error f => exact ⟨.error (c.fault f), h⟩
    | ok a => exact ⟨.ok a, h⟩
  evaluate e _ := c.evaluate e
  store v _ := c.store _ v
  write := c.write
  located span _ _ h := Simulates.located h (c.locate span)
  inFrame := c.inFrame
  flushed h := h.followedBy c.flush

/-- **Programs go hand in hand** with themselves at other places. -/
theorem run (c : Coupling g R E) (p : Program) :
    Simulates R E (p.run : Exec ι ο Outcome) ((p.relocate g).run : Exec ι' ο' Outcome) :=
  c.comparison.run fun _ _ => trivial

end Coupling

end Exec

end Scriptling

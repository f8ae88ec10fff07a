import Scriptling.Interpreter.Exec

/-!
# Errors on their way out

An error goes out through all statements around its origin, and each of them puts its span on it
(`Exec.located`). The first span that is put on an error stays (`RunError.locate_locate`), so what
the statements further out do makes no difference: the execution of a statement is unchanged if one
more span is put on its errors (`Exec.located_exec`).

It follows that the spans can be put on the single actions of a statement, and nowhere else. In this
form the equations for the execution of statements are stated (`exec_assign` and the like).
-/

namespace Scriptling

/-! ## The first span stays -/

theorem RunError.locate_none (span : Span) (f : Fault) :
    RunError.locate span ⟨f, none⟩ = ⟨f, some span⟩ := rfl

theorem RunError.locate_some (span here : Span) (f : Fault) :
    RunError.locate span ⟨f, some here⟩ = ⟨f, some here⟩ := rfl

/-- **Only the first span counts.** -/
theorem RunError.locate_locate (inner outer : Span) (e : RunError) :
    (e.locate inner).locate outer = e.locate inner := by
  obtain ⟨f, _ | here⟩ := e <;> rfl

section

variable {ε σ α β : Type}

/-- A sequence goes on with the value of its first part, or stops where that failed. -/
theorem run_bind (x : ExceptT ε (StateM σ) α) (f : α → ExceptT ε (StateM σ) β) (s : σ) :
    (x >>= f).run s =
      match x.run s with
      | (.ok a, s) => (f a).run s
      | (.error e, s) => (.error e, s) := by
  change (ExceptT.bind x f).run s = _
  simp only [ExceptT.bind, ExceptT.run, ExceptT.mk, bind, StateT.bind]
  rcases x s with ⟨_ | _, _⟩ <;> rfl

end

namespace Exec

variable {ι ο α β : Type} (span : Span)

/-- The span is put on the error, and nothing else is changed. -/
theorem run_located (x : Exec ι ο α) (m : Machine ι ο) :
    (located span x).run m =
      match x.run m with
      | (.ok a, m) => (.ok a, m)
      | (.error e, m) => (.error (e.locate span), m) := by
  change (Except.mapError (RunError.locate span) (x.run m).1, (x.run m).2) = _
  rcases x.run m with ⟨_ | _, _⟩ <;> rfl

theorem located_pure (a : α) : located span (pure a : Exec ι ο α) = pure a := rfl

/-- The errors of a sequence are those of its parts. -/
theorem located_bind (x : Exec ι ο α) (f : α → Exec ι ο β) :
    located span (x >>= f) = located span x >>= fun a => located span (f a) := by
  funext m
  change (located span (x >>= f)).run m = (located span x >>= fun a => located span (f a)).run m
  rw [run_located, run_bind, run_bind, run_located]
  rcases x.run m with ⟨_ | a, m⟩
  · rfl
  · exact (run_located span (f a) m).symm

theorem located_ite (c : Prop) [Decidable c] (x y : Exec ι ο α) :
    located span (if c then x else y) = if c then located span x else located span y := by
  split <;> rfl

theorem located_inFrame (x : Exec ι ο α) :
    located span (inFrame x) = inFrame (located span x) := rfl

/-- One more span is put on errors that all have one already. -/
theorem located_located (outer : Span) (x : Exec ι ο α) :
    located outer (located span x) = located span x := by
  funext m
  change (located outer (located span x)).run m = (located span x).run m
  rw [run_located, run_located]
  rcases x.run m with ⟨e | a, m⟩
  · simp only [RunError.locate_locate]
  · rfl

theorem located_rounds (round : Int64 → Exec ι ο Flow) (i : Int64) (count : Nat) :
    located span (rounds round i count) = rounds (fun i => located span (round i)) i count := by
  induction count generalizing i with
  | zero => rfl
  | succ count ih =>
    rw [rounds, rounds, located_bind]
    refine bind_congr fun flow => ?_
    match flow with
    | .normal | .jump .continue_ => exact ih (i + 1)
    | .jump .break_ | .exit => rfl

variable [LineSource ι] [LineSink ο]

/-- **Statements further out change nothing.** -/
theorem located_exec (s : Stmt) :
    located span (exec s : Exec ι ο Flow) = exec s :=
  located_located s.span span (work s)

theorem located_execAll (body : List Stmt) :
    located span (execAll body : Exec ι ο Flow) = execAll body := by
  induction body with
  | nil => rfl
  | cons s rest ih =>
    change located span (exec s >>= _) = _
    rw [located_bind, located_exec]
    refine bind_congr fun flow => ?_
    match flow with
    | .normal => exact ih
    | .jump _ | .exit => rfl

end Exec

/-! ## What statements do

Each action has the span of its statement; the statements in it see to their own errors. -/

section

open Exec

variable {ι ο : Type} [LineSource ι] [LineSink ο] (span : Span)

theorem exec_assign (x : String) (e : Expr) :
    (exec (.assign span x e) : Exec ι ο Flow) = (do
      let v ← located span (evaluate e)
      located span (require (if v.storable then .ok () else .error (.notStorable v.kind)))
      located span (store x v)
      return .normal) := by
  change located span (_ >>= _) = _
  simp only [located_bind, located_pure]

theorem exec_print (e : Expr) :
    (exec (.print span e) : Exec ι ο Flow) = (do
      let v ← located span (evaluate e)
      located span (write v.text)
      return .normal) := by
  change located span (_ >>= _) = _
  simp only [located_bind, located_pure]

theorem exec_ifThen (cond : Expr) (yes : Stmt) :
    (exec (.ifThen span cond yes) : Exec ι ο Flow) = (do
      let v ← located span (evaluate cond)
      if ← located span (require v.asBool) then exec yes else return .normal) := by
  change located span (_ >>= _) = _
  simp only [exec, located_bind, located_pure, located_ite, located_located]

theorem exec_ifThenElse (cond : Expr) (yes no : Stmt) :
    (exec (.ifThenElse span cond yes no) : Exec ι ο Flow) = (do
      let v ← located span (evaluate cond)
      if ← located span (require v.asBool) then exec yes else exec no) := by
  change located span (_ >>= _) = _
  simp only [exec, located_bind, located_ite, located_located]

theorem exec_forTo (x : String) (first last : Expr) (body : Stmt) :
    (exec (.forTo span x first last body) : Exec ι ο Flow) = (do
      let a ← located span (evaluate first)
      let b ← located span (evaluate last)
      let a ← located span (require a.asInt)
      let b ← located span (require b.asInt)
      let round := fun i => do
        located span (store x (.int i))
        exec body
      rounds round a (roundCount a b)) := by
  change located span (_ >>= _) = _
  simp only [exec, located_bind, located_rounds, located_located]

theorem exec_block (body : List Stmt) :
    (exec (.block span body) : Exec ι ο Flow) = inFrame (execAll body) :=
  congrArg inFrame (located_execAll span body)

theorem exec_break : (exec (.break_ span) : Exec ι ο Flow) = return .jump .break_ :=
  rfl

theorem exec_continue : (exec (.continue_ span) : Exec ι ο Flow) = return .jump .continue_ :=
  rfl

theorem exec_exit : (exec (.exit_ span) : Exec ι ο Flow) = return .exit :=
  rfl

theorem execAll_nil : (execAll [] : Exec ι ο Flow) = return .normal :=
  rfl

theorem execAll_cons (s : Stmt) (rest : List Stmt) :
    (execAll (s :: rest) : Exec ι ο Flow) = (do
      match ← exec s with
      | .normal => execAll rest
      | flow => return flow) :=
  rfl

end

/-! ## Single actions

An action with a span, as it changes the machine. -/

namespace Exec

variable {ι ο : Type} (span : Span) (m : Machine ι ο)

theorem run_located_require {α : Type} (r : Except Fault α) :
    (located span (require r) : Exec ι ο α).run m =
      match r with
      | .ok a => (.ok a, m)
      | .error f => (.error ⟨f, some span⟩, m) := by
  cases r <;> rfl

theorem run_located_evaluate [LineSource ι] (e : Expr) :
    (located span (evaluate e) : Exec ι ο Value).run m =
      match (eval m.scopes e).run m.input with
      | (.ok v, input) => (.ok v, { m with input })
      | (.error f, input) => (.error ⟨f, some span⟩, { m with input }) := by
  rw [run_located, evaluate, ExceptT.run_mk]
  rcases (eval m.scopes e).run m.input with ⟨_ | _, _⟩ <;> rfl

theorem run_located_store (x : String) (v : Value) :
    (located span (store x v) : Exec ι ο Unit).run m =
      match m.scopes.assign x v with
      | .ok scopes => (.ok (), { m with scopes })
      | .error f => (.error ⟨f, some span⟩, m) := by
  rw [run_located, store, ExceptT.run_mk]
  rcases m.scopes.assign x v with _ | _ <;> rfl

theorem run_located_write [LineSink ο] (line : String) :
    (located span (write line) : Exec ι ο Unit).run m =
      match LineSink.write m.output line with
      | (.ok (), output) => (.ok (), { m with output })
      | (.error why, output) => (.error ⟨.unwritable why, some span⟩, { m with output }) := by
  rw [run_located, write, ExceptT.run_mk]
  rcases LineSink.write m.output line with ⟨_ | _, _⟩ <;> rfl

end Exec

end Scriptling

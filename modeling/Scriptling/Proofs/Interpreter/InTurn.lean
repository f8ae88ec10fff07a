import Scriptling.Proofs.Interpreter.OutputStream

/-!
# Programs in parts

A program can be run as a whole, or its statements can be divided into parts, as they come in over
a session, and the parts can be run one after another on the same machine (`runInTurn`). A part
that was completed leaves nothing to the next one but the machine, so the two come to the same.

What differs are the flushes: every part has one at its end. An output stream does not notice when
it is flushed, if flushing never fails, and so nothing else depends on them.
-/

namespace Scriptling

section

variable {ι ο : Type} [LineSource ι] [LineSink ο]

/-- Runs programs one after another, up to the first one that is not completed. -/
def runInTurn : List Program → Exec ι ο Outcome
  | [] => return .completed
  | p :: rest => do
    match ← p.run with
    | .completed => runInTurn rest
    | .exited => return .exited

/-- Statements in two parts. The second part is run only if the first one was completed. -/
theorem runAll_append (done after : List Stmt) :
    (runAll (done ++ after) : Exec ι ο Outcome) = do
      match ← runAll done with
      | .completed => runAll after
      | .exited => return .exited := by
  induction done with
  | nil => rfl
  | cons s rest ih =>
    rw [List.cons_append, runAll, runAll, bind_assoc]
    congr 1
    funext flow
    match flow with
    | .normal => exact ih
    | .exit | .jump _ => rfl

end

/-! ## Flushes -/

section

variable {ι ο : Type} [LineSink ο]

/-- A computation with a flush at its end, if flushing does not fail. -/
theorem Exec.run_followedBy_flush {α : Type} (hflush : ∀ o : ο, (LineSink.flush o).1 = .ok ())
    (x : Exec ι ο α) (m : Machine ι ο) :
    (followedBy x flush).run m =
      ((x.run m).1, { (x.run m).2 with output := (LineSink.flush (x.run m).2.output).2 }) := by
  rcases hx : x.run m with ⟨r, m'⟩
  have hok := hflush m'.output
  rcases ho : LineSink.flush m'.output with ⟨why | _, output⟩
  · rw [ho] at hok
    cases hok
  · simp only [followedBy, flush, ExceptT.run_mk, hx, ho]
    cases r <;> rfl

variable [LineSource ι] (hflush : ∀ o : ο, (LineSink.flush o).1 = .ok ())

include hflush

/-- Statements behind those that were not completed have no effect. -/
theorem Program.run_append_of_not_completed {done : List Stmt} (after : List Stmt)
    {m : Machine ι ο} (h : ((Program.run ⟨done⟩).run m).1 ≠ .ok .completed) :
    (Program.run ⟨done ++ after⟩).run m = (Program.run ⟨done⟩).run m := by
  rw [Program.run, Exec.run_followedBy_flush hflush] at h
  rw [Program.run, Program.run, Exec.run_followedBy_flush hflush, Exec.run_followedBy_flush hflush,
    runAll_append, run_bind]
  rcases hdone : (runAll done).run m with ⟨e | outcome, m'⟩
  · rfl
  · cases outcome with
    | completed =>
      rw [hdone] at h
      exact absurd rfl h
    | exited => rfl

/-- If there are parts, the output was flushed at the end of the last one that was run. -/
theorem exists_output_runInTurn_eq_flush {parts : List Program} (hparts : parts ≠ [])
    (m : Machine ι ο) : ∃ o, ((runInTurn parts).run m).2.output = (LineSink.flush o).2 := by
  induction parts generalizing m with
  | nil => exact absurd rfl hparts
  | cons p rest ih =>
    rw [runInTurn, run_bind, Program.run, Exec.run_followedBy_flush hflush]
    rcases (runAll p.body).run m with ⟨e | outcome, n⟩
    · exact ⟨_, rfl⟩
    · cases outcome with
      | exited => exact ⟨_, rfl⟩
      | completed =>
        rcases rest with _ | ⟨q, rest⟩
        · exact ⟨_, rfl⟩
        · exact ih (by simp) _

end

/-! ## The whole and its parts -/

section

variable {ι ο : Type} [LineSource ι] [LineSink ο]

/-- The order in which bindings are listed is noticed in parts as little as in one program. -/
theorem runInTurn_relist (parts : List Program) (l : Listing) :
    Simulates (fun m m' => m' = m.relist l) RunError.Tied
      (runInTurn parts : Exec ι ο Outcome) (runInTurn parts) := by
  induction parts with
  | nil => exact .pure _
  | cons p rest ih =>
    have hp : Simulates (fun m m' => m' = m.relist l) RunError.Tied
        (p.run : Exec ι ο Outcome) p.run := by
      rintro m _ rfl
      exact p.run_relist m l
    refine hp.bind fun outcome => ?_
    cases outcome with
    | completed => exact ih
    | exited => exact .pure _

/-- A relation between outputs that does not notice flushes. -/
structure LineSink.FlushFree (O : ο → ο → Prop) : Prop extends Coupled O where
  /-- flushing never fails -/
  flush_ok (o : ο) : (LineSink.flush o).1 = .ok ()
  /-- one of the two was flushed -/
  flush_right {o o' : ο} : O o o' → O o (LineSink.flush o').2

variable {O : ο → ο → Prop}

theorem runAll_inStep (h : LineSink.Coupled O) (body : List Stmt) :
    Simulates (Machine.Parts Eq Eq O) (RunError.At Eq) (runAll body : Exec ι ο Outcome)
      (runAll body) := by
  have hlockstep : Exec.Lockstep (fun _ => True) (fun _ => False) Eq Eq (Eq : ι → ι → Prop) O :=
    ⟨fun _ => rfl, Scopes.coupled_eq fun _ => rfl, readLine_simulates fun _ => rfl, h⟩
  have hbody := hlockstep.comparison.runAll body fun _ _ => trivial
  rw [← Stmt.relocateAll_eq_map, Stmt.relocateAll_id] at hbody
  exact simulates_iff.mpr hbody

/-- A part ends as its statements do; there is a flush more. -/
theorem Program.run_inStep (h : LineSink.FlushFree O) (p : Program) :
    Simulates (Machine.Parts Eq Eq O) (RunError.At Eq) (runAll p.body : Exec ι ο Outcome)
      p.run := by
  intro m m' hm
  obtain ⟨hresult, hparts⟩ := runAll_inStep h.toCoupled p.body m m' hm
  rw [Program.run, Exec.run_followedBy_flush h.flush_ok]
  exact ⟨hresult, hparts.scopes, hparts.input, h.flush_right hparts.output⟩

/-- **Parts in turn.** The statements of all parts in one row end as the parts do in turn. -/
theorem runInTurn_inStep (h : LineSink.FlushFree O) (parts : List Program) :
    Simulates (Machine.Parts Eq Eq O) (RunError.At Eq)
      (runAll (parts.flatMap Program.body) : Exec ι ο Outcome) (runInTurn parts) := by
  induction parts with
  | nil => exact .pure _
  | cons p rest ih =>
    rw [List.flatMap_cons, runAll_append, runInTurn]
    refine (p.run_inStep h).bind fun outcome => ?_
    cases outcome with
    | completed => exact ih
    | exited => exact .pure _

end

section

variable {ι ο κ δ : Type} [LineSource ι] [LineSink ο]

end

end Scriptling

import Scriptling.Proofs.Interpreter.Environment
import Scriptling.Proofs.Interpreter.FrameLaw
import Scriptling.Proofs.Interpreter.Simulation

/-!
# Frames and a single environment do the same

The machine with frames and the machine with one environment go hand in hand as long as the
environment holds what is visible in the frames (`Machine.Agrees`). Reading and checking
look at visible values only, and a store in the innermost frame changes what is visible at
one name. A new frame changes nothing that is visible; and when a block is left, the frame
law gives back the scopes with which it was entered, to which the environment that is put
back belongs.

The two differ in one thing. For an unknown name the frames also offer names that are
hidden, in their own order, when they look for a suggestion; so faults are compared without
it (`Fault.Alike`).
-/

namespace Scriptling

/-! ## Faults without suggestions -/

namespace Fault

/-- The fault without a suggestion for an unknown name. -/
def plain : Fault → Fault
  | undefinedVariable x _ => undefinedVariable x none
  | f => f

/-- The faults differ at most in the suggestion for an unknown name. -/
def Alike (f g : Fault) : Prop :=
  f.plain = g.plain

theorem Alike.refl (f : Fault) : f.Alike f := rfl

theorem category_plain (f : Fault) : f.plain.category = f.category := by
  cases f <;> rfl

theorem Alike.category {f g : Fault} (h : f.Alike g) : f.category = g.category := by
  rw [← category_plain f, ← category_plain g, h]

end Fault

/-- The same fault, but for a suggestion, at the same span. -/
def RunError.Alike (e e' : RunError) : Prop :=
  e.fault.Alike e'.fault ∧ e.span = e'.span

theorem RunError.Alike.refl (e : RunError) : e.Alike e := ⟨rfl, rfl⟩

/-- A fault of the same class at the same span. -/
def RunError.SameClass (e e' : RunError) : Prop :=
  e.fault.category = e'.fault.category ∧ e.span = e'.span

theorem RunError.Alike.sameClass {e e' : RunError} (h : e.Alike e') : e.SameClass e' :=
  ⟨h.1.category, h.2⟩

/-! ## Expressions -/

section

variable {ι : Type} [LineSource ι]

/-- Expressions come to the same if names are looked up alike. -/
theorem evalBy_alike {look look' : String → Except Fault Value}
    (hlook : ∀ x, Matches Fault.Alike (look x) (look' x)) (e : Expr) :
    Simulates Eq Fault.Alike (evalBy look e : Eval ι Value) (evalBy look' e) := by
  apply simulates_iff.mpr
  apply evalBy_simulates Fault.Alike.refl (readLine_simulates Fault.Alike.refl)
  intro x _
  exact hlook x

end

/-! ## Machines -/

section

variable {ι ο : Type}

/-- The environment holds what is visible in the frames, and input and output are the
same. -/
structure Machine.Agrees (m : Machine ι ο) (w : FlatMachine ι ο) : Prop where
  /-- the environment is the visible part of the scopes -/
  env : ∀ x : String, w.env[x]? = m.scopes.get? x
  /-- the same lines are still to be read -/
  input : w.input = m.input
  /-- the same was written -/
  output : w.output = m.output

namespace Machine.Agrees

theorem lookup {m : Machine ι ο} {w : FlatMachine ι ο} (h : m.Agrees w) (x : String) :
    Matches Fault.Alike (m.scopes.lookup x) (Flat.lookup w.env x) := by
  rw [Scopes.lookup, Flat.lookup, h.env x]
  rcases m.scopes.get? x with _ | v
  · exact .error rfl
  · exact .ok v

/-- The frames and the environment take a new binding alike. -/
theorem bind {m : Machine ι ο} {w : FlatMachine ι ο} (h : m.Agrees w) (x : String)
    (v : Value) :
    Agrees { m with scopes := m.scopes.bind x v } { w with env := w.env.insert x v } where
  env y := by
    rw [Frame.getElem?_insert, Scopes.get?_bind, h.env y]
  input := h.input
  output := h.output

end Machine.Agrees

/-- The computation on frames and the one on an environment do the same. -/
abbrev Refines {α : Type} (x : Exec ι ο α) (y : FlatExec ι ο α) : Prop :=
  Simulates Machine.Agrees RunError.Alike x y

namespace Refines

theorem require {α : Type} (span : Span) (r : Except Fault α) :
    Refines (Exec.located span (Exec.require r) : Exec ι ο α) (Flat.require span r) := by
  intro m w h
  cases r with
  | error f => exact ⟨.error (.refl _), h⟩
  | ok a => exact ⟨.ok a, h⟩

theorem evaluate [LineSource ι] (span : Span) (e : Expr) :
    Refines (Exec.located span (Exec.evaluate e) : Exec ι ο Value) (Flat.evaluate span e) := by
  intro m w h
  have hsim : Simulates Eq Fault.Alike (evalBy m.scopes.lookup e : Eval ι Value) _ :=
    evalBy_alike h.lookup e
  obtain ⟨hresult, hinput⟩ := hsim m.input w.input h.input.symm
  simp only [Exec.run_located_evaluate, Flat.evaluate, ExceptT.run_mk, eval_eq_evalBy]
  rcases hm : (evalBy m.scopes.lookup e : Eval ι Value).run m.input with ⟨r, rest⟩
  rcases hw : (evalBy (Flat.lookup w.env) e : Eval ι Value).run w.input with ⟨r', rest'⟩
  rw [hm, hw] at hresult hinput
  obtain rfl : rest = rest' := hinput
  cases hresult with
  | ok v => exact ⟨.ok v, h.env, rfl, h.output⟩
  | error hf => exact ⟨.error ⟨hf, rfl⟩, h.env, rfl, h.output⟩

theorem store (span : Span) (x : String) (v : Value) :
    Refines (Exec.located span (Exec.store x v) : Exec ι ο Unit) (Flat.store span x v) := by
  intro m w h
  simp only [Exec.run_located_store, Flat.store, ExceptT.run_mk, Scopes.assign, h.env x]
  rcases m.scopes.get? x with _ | old
  · exact ⟨.ok (), h.bind x v⟩
  · by_cases hkind : old.kind = v.kind
    · simp only [hkind, if_true]
      exact ⟨.ok (), h.bind x v⟩
    · simp only [hkind, if_false]
      exact ⟨.error (.refl _), h⟩

theorem write [LineSink ο] (span : Span) (line : String) :
    Refines (Exec.located span (Exec.write line) : Exec ι ο Unit) (Flat.write span line) := by
  intro m w h
  simp only [Exec.run_located_write, Flat.write, ExceptT.run_mk, h.output]
  rcases LineSink.write m.output line with ⟨_ | _, output⟩
  · exact ⟨.error (.refl _), h.env, h.input, rfl⟩
  · exact ⟨.ok (), h.env, h.input, rfl⟩

theorem flush [LineSink ο] : Refines (Exec.flush : Exec ι ο Unit) Flat.flush := by
  intro m w h
  simp only [Exec.flush, Flat.flush, ExceptT.run_mk, h.output]
  rcases LineSink.flush m.output with ⟨_ | _, output⟩
  · exact ⟨.error (.refl _), h.env, h.input, rfl⟩
  · exact ⟨.ok (), h.env, h.input, rfl⟩

/-- Loops do the same if their rounds do. -/
theorem rounds {round : Int64 → Exec ι ο Flow} {round' : Int64 → FlatExec ι ο Flow}
    (hround : ∀ i, Refines (round i) (round' i)) (i : Int64) (count : Nat) :
    Refines (Exec.rounds round i count) (Flat.rounds round' i count) := by
  induction count generalizing i with
  | zero => exact .pure _
  | succ count ih =>
    refine (hround i).bind fun flow => ?_
    match flow with
    | .normal | .jump .continue_ => exact ih (i + 1)
    | .jump .break_ | .exit => exact .pure _

/-- Leaving a frame is putting the environment back, for a body that obeys the frame law:
the scopes after the block are those before it, and the old environment belongs to them. -/
theorem inFrame {α : Type} {Y : List String} {x : Exec ι ο α} {y : FlatExec ι ο α}
    (hx : Refines x y) (hlaw : Exec.Keeps (fun m m' => m.scopes.Framed Y m'.scopes) x) :
    Refines (Exec.inFrame x) (Flat.restoring y) := by
  intro m w h
  -- an empty frame hides nothing, so the body starts in machines that agree
  have hpush : Machine.Agrees { m with scopes := m.scopes.push } w :=
    ⟨fun z => by rw [Scopes.get?_push, h.env z], h.input, h.output⟩
  obtain ⟨hresult, hstate⟩ := hx _ _ hpush
  -- afterwards only input and output are those of the body; the variables are the old ones
  have hscopes : ((Exec.inFrame x).run m).2.scopes = m.scopes :=
    (hlaw { m with scopes := m.scopes.push }).pop
  refine ⟨hresult, fun z => ?_, hstate.input, hstate.output⟩
  rw [hscopes]
  exact h.env z

/-- Choices do the same if their branches do. -/
theorem choice [LineSource ι] (span : Span) (cond : Expr) {yes no : Exec ι ο Flow}
    {yes' no' : FlatExec ι ο Flow} (hyes : Refines yes yes') (hno : Refines no no') :
    Refines
      (do
        let v ← Exec.located span (Exec.evaluate cond)
        if ← Exec.located span (Exec.require v.asBool) then yes else no)
      (do
        let v ← Flat.evaluate span cond
        if ← Flat.require span v.asBool then yes' else no') := by
  refine (Refines.evaluate span cond).bind fun v => ?_
  refine (Refines.require span v.asBool).bind fun b => ?_
  cases b
  · exact hno
  · exact hyes

variable [LineSource ι] [LineSink ο]

mutual

/-- **Frames refine the environment**, statement by statement. -/
theorem exec : ∀ s : Stmt, Refines (exec s : Exec ι ο Flow) (Flat.exec s)
  | .assign span x e => by
    rw [exec_assign, Flat.exec]
    refine (Refines.evaluate span e).bind fun v => ?_
    refine (Refines.require span _).bind fun _ => ?_
    exact (Refines.store span x v).bind fun _ => .pure _
  | .print span e => by
    rw [exec_print, Flat.exec]
    refine (Refines.evaluate span e).bind fun v => ?_
    exact (Refines.write span v.text).bind fun _ => .pure _
  | .ifThen span cond yes => by
    rw [exec_ifThen, Flat.exec]
    exact Refines.choice span cond (Refines.exec yes) (.pure _)
  | .ifThenElse span cond yes no => by
    rw [exec_ifThenElse, Flat.exec]
    exact Refines.choice span cond (Refines.exec yes) (Refines.exec no)
  | .forTo span x first last body => by
    rw [exec_forTo, Flat.exec]
    refine (Refines.evaluate span first).bind fun a => (Refines.evaluate span last).bind fun b => ?_
    refine (Refines.require span a.asInt).bind fun a => ?_
    refine (Refines.require span b.asInt).bind fun b => ?_
    refine Refines.rounds (fun i => ?_) a (Exec.roundCount a b)
    exact (Refines.store span x (.int i)).bind fun _ => Refines.exec body
  | .block _ body => by
    rw [exec_block, Flat.exec]
    exact (Refines.execAll body).inFrame (Scopes.framed_law.execAll body (List.Subset.refl _))
  | .break_ _ => by rw [exec_break, Flat.exec]; exact .pure _
  | .continue_ _ => by rw [exec_continue, Flat.exec]; exact .pure _
  | .exit_ _ => by rw [exec_exit, Flat.exec]; exact .pure _

theorem execAll : ∀ body : List Stmt, Refines (execAll body : Exec ι ο Flow) (Flat.execAll body)
  | [] => by rw [execAll_nil, Flat.execAll]; exact .pure _
  | s :: rest => by
    rw [execAll_cons, Flat.execAll]
    refine (Refines.exec s).bind fun flow => ?_
    match flow with
    | .normal => exact Refines.execAll rest
    | .jump _ | .exit => exact .pure _

end

theorem runAll (body : List Stmt) :
    Refines (runAll body : Exec ι ο Outcome) (Flat.runAll body) := by
  induction body with
  | nil => exact .pure _
  | cons s rest ih =>
    refine (Refines.exec s).bind fun flow => ?_
    match flow with
    | .normal => exact ih
    | .jump _ => exact .throw (.refl _)
    | .exit => exact .pure _

theorem run (p : Program) : Refines (p.run : Exec ι ο Outcome) (Flat.run p) :=
  (Refines.runAll p.body).followedBy Refines.flush

end Refines

/-- **Frames refine the environment.** Let the environment hold what is visible in the
frames. Then a statement, and a whole program, ends on both machines in the same way or
with an error of the same class at the same span; both have then written the same and have
the same lines to read, and the environment again holds what is visible. -/
theorem exec_refines_environment [LineSource ι] [LineSink ο] :
    (∀ (s : Stmt) (m : Machine ι ο) (w : FlatMachine ι ο), m.Agrees w →
      Matches RunError.SameClass ((exec s).run m).1 ((Flat.exec s).run w).1 ∧
        ((exec s).run m).2.Agrees ((Flat.exec s).run w).2) ∧
    ∀ (p : Program) (m : Machine ι ο) (w : FlatMachine ι ο), m.Agrees w →
      Matches RunError.SameClass (p.run.run m).1 ((Flat.run p).run w).1 ∧
        (p.run.run m).2.Agrees ((Flat.run p).run w).2 := by
  refine ⟨fun s m w h => ?_, fun p m w h => ?_⟩
  · obtain ⟨hresult, hstate⟩ := Refines.exec s m w h
    exact ⟨hresult.mono RunError.Alike.sameClass, hstate⟩
  · obtain ⟨hresult, hstate⟩ := Refines.run p m w h
    exact ⟨hresult.mono RunError.Alike.sameClass, hstate⟩

end

/-- A name that is bound in two frames, and a block that hides it once more. -/
theorem exec_refines_environment_hidden :
    ∃ (m : Machine (List String) LineBuffer) (w : FlatMachine (List String) LineBuffer)
      (s : Stmt),
      m.scopes = ⟨[(∅ : Frame).insert "x" (.int 2)], (∅ : Frame).insert "x" (.int 1), .byName⟩ ∧
      w.env = (∅ : Frame).insert "x" (.int 2) ∧
      s = .block ⟨0, 16⟩ [.assign ⟨6, 12⟩ "x" (.int ⟨11, 12⟩ 3)] ∧ m.Agrees w ∧
      Matches RunError.SameClass ((exec s).run m).1 ((Flat.exec s).run w).1 ∧
      ((exec s).run m).2.Agrees ((Flat.exec s).run w).2 := by
  have hagrees : Machine.Agrees
      ⟨⟨[(∅ : Frame).insert "x" (.int 2)], (∅ : Frame).insert "x" (.int 1), .byName⟩, ["7"], .empty⟩
      (⟨(∅ : Frame).insert "x" (.int 2), ["7"], .empty⟩ : FlatMachine _ LineBuffer) := by
    refine ⟨fun y => ?_, rfl, rfl⟩
    simp only [Scopes.get?, Scopes.frames, List.cons_append, List.nil_append,
      List.findSome?_cons, List.findSome?_nil, Frame.getElem?_insert]
    by_cases hy : "x" = y <;> simp [hy]
  exact ⟨_, _, _, rfl, rfl, rfl, hagrees, exec_refines_environment.1 _ _ _ hagrees⟩

end Scriptling

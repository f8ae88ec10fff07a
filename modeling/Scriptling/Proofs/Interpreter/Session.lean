import Scriptling.Proofs.Interpreter.Effects

/-!
# Sessions

One machine can be used again and again: programs are run on it, expressions are evaluated
on it, and it can be reset. Runs that fail or exit are calls like all others; the machine
goes on from where they left it.
-/

namespace Scriptling

/-- What can be done with a machine from outside. -/
inductive Call
  /-- to run a program -/
  | run (p : Program)
  /-- to evaluate an expression -/
  | evaluate (e : Expr)
  /-- to forget all variables -/
  | reset

namespace Machine

variable {ι ο : Type} [LineSource ι] [LineSink ο]

/-- The machine after a call, whatever the call returned. -/
def call (m : Machine ι ο) : Call → Machine ι ο
  | .run p => (p.run.run m).2
  | .evaluate e => ((evalAlone e : Exec ι ο Value).run m).2
  | .reset => m.reset

/-- The machine after calls in order. -/
def session (m : Machine ι ο) (calls : List Call) : Machine ι ο :=
  calls.foldl call m

@[simp] theorem session_cons (m : Machine ι ο) (c : Call) (calls : List Call) :
    m.session (c :: calls) = (m.call c).session calls := rfl

end Machine

/-- A law of execution holds of every call but a reset. -/
theorem Exec.Law.call {ι ο : Type} [LineSource ι] [LineSink ο]
    {R : List String → Machine ι ο → Machine ι ο → Prop} (law : Exec.Law R) (m : Machine ι ο)
    {c : Call} (hc : c ≠ .reset) : ∃ X, R X m (m.call c) := by
  cases c with
  | run p => exact ⟨_, law.run p m⟩
  | evaluate e => exact ⟨[], (law.evaluate [] e).located e.span m⟩
  | reset => exact absurd rfl hc

end Scriptling

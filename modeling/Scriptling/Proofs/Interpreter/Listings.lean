import Scriptling.Proofs.Interpreter.Hints
import Scriptling.Proofs.Interpreter.Lockstep

/-!
# The order in which bindings are listed

Nothing is known about the order in which the bindings of a frame are listed. So two runs of one
program from the same variables may list them in different orders, and what they have in common is
all that can be relied on. Only the search for a hint goes through such a list, and where several
names are equally near to an unknown one, the first of them is its result. Hence the two runs do
the same, and if they fail, then with the same fault, in which at most one hint is put for another
that is equally near (`Program.run_relist`).
-/

namespace Scriptling

open Suggestion (away reach nearest?)

/-- The same fault, or the same unknown name with two hints of which none is nearer. -/
inductive Fault.Tied : Fault → Fault → Prop
  /-- the same fault -/
  | refl (f : Fault) : Tied f f
  /-- two hints -/
  | hint {x c d : String} : away x c = away x d →
      Tied (.undefinedVariable x (some c)) (.undefinedVariable x (some d))

/-- Results with the same value, or with faults that are the same up to equally near hints, at the
same place. -/
abbrev RunError.Tied : RunError → RunError → Prop :=
  At Fault.Tied

/-- Listed from the last name to the first. -/
def Listing.reversed : Listing :=
  ⟨fun _ f => f.toList.reverse, fun _ f => f.toList.reverse_perm⟩

namespace Scopes

variable {s : Scopes} {name : String}

/-- The same frames, listed in another order. -/
def relist (s : Scopes) (l : Listing) : Scopes :=
  { s with listing := l }

/-- What is a hint does not depend on the order. -/
theorem Hints.relist {limit : Nat} {hint : Option String} {l : Listing}
    (h : (s.relist l).Hints name limit hint) : s.Hints name limit hint :=
  ⟨h.isSome_iff, h.visible, h.ne, h.near, h.nearest, h.innermost⟩

/-- **Two hints for one name are equally near.** -/
theorem Hints.tied {limit : Nat} {hint hint' : Option String} (h : s.Hints name limit hint)
    (h' : s.Hints name limit hint') :
    Fault.Tied (.undefinedVariable name hint) (.undefinedVariable name hint') := by
  have hsome : hint.isSome ↔ hint'.isSome := h.isSome_iff.trans h'.isSome_iff.symm
  rcases hint with _ | c <;> rcases hint' with _ | d
  · exact .refl _
  · simp at hsome
  · simp at hsome
  · refine .hint (le_antisymm ?_ ?_)
    · exact h.nearest c rfl d (h'.visible d rfl)
    · exact h'.nearest d rfl c (h.visible c rfl)

/-- In another order, names are looked up alike, up to equally near hints. -/
theorem coupled_relist (l : Listing) :
    Coupled (fun _ => True) Fault.Tied (fun s t => t = s.relist l) where
  lookup := by
    rintro s _ x rfl -
    have hget : (s.relist l).get? x = s.get? x := rfl
    rw [lookup, lookup, hget]
    rcases hx : s.get? x with _ | v
    · have h : s.Hints x (reach x) (nearest? x s.names) := s.listed_rows.hints hx
      have h' : (s.relist l).Hints x (reach x) (nearest? x (s.relist l).names) :=
        (s.relist l).listed_rows.hints hx
      exact .error (h.tied h'.relist)
    · exact .ok v
  bind := by
    rintro ⟨locals, global, listing⟩ _ x v rfl -
    cases locals <;> rfl
  push := by
    rintro s _ rfl
    rfl
  pop := by
    rintro ⟨locals, global, listing⟩ _ rfl
    cases locals <;> rfl

end Scopes

section

variable {ι ο : Type}

/-- The same machine, except for the order in which bindings are listed. -/
def Machine.relist (m : Machine ι ο) (l : Listing) : Machine ι ο :=
  { m with scopes := m.scopes.relist l }

/-- Machines that differ in the order of a listing only. -/
theorem Machine.Parts.eq_relist {l : Listing} {m m' : Machine ι ο}
    (h : m.Parts (fun s t => t = s.relist l) Eq Eq m') : m' = m.relist l := by
  obtain ⟨scopes, input, output⟩ := m'
  obtain ⟨rfl, rfl, rfl⟩ := h
  rfl

variable [LineSource ι] [LineSink ο]

/-- **The order of a listing is hardly noticed.** Whatever order the bindings of the frames are
listed in, a program ends in the same way, or with the same error up to equally near hints, and
leaves the same variables, input and output. -/
theorem Program.run_relist (p : Program) (m : Machine ι ο) (l : Listing) :
    Matches RunError.Tied (p.run.run m).1 (p.run.run (m.relist l)).1 ∧
      (p.run.run (m.relist l)).2 = (p.run.run m).2.relist l := by
  have hlockstep : Exec.Lockstep (fun _ => True) (fun _ => False) Fault.Tied
      (fun s t => t = s.relist l) (Eq : ι → ι → Prop) (Eq : ο → ο → Prop) :=
    ⟨.refl, Scopes.coupled_relist l, readLine_simulates .refl, LineSink.coupled_eq⟩
  obtain ⟨hresult, hparts⟩ :=
    hlockstep.run_always (p := p) (fun _ _ => trivial) m (m.relist l) ⟨rfl, rfl, rfl⟩
  exact ⟨hresult, hparts.eq_relist⟩

end

end Scriptling

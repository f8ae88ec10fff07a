import Scriptling.Proofs.Interpreter.Lockstep
import Scriptling.Proofs.Interpreter.Refinement

/-!
# Variables that a program does not mention

A variable that does not occur in a program does not matter to it, whatever frames bind it and
to what. Two runs that differ in its bindings only go in lockstep: the scopes stay the same in
what they bind all other names to (`Scopes.AgreeExcept`). And neither run touches the bindings
of the variable, by the frame law.

There is one place where the variable is looked at. For an unknown name a suggestion is chosen
among all names that are bound, so the hint of a message can give the variable away. It is the
only thing that can (`RunError.SameButHint`).
-/

namespace Scriptling

/-! ## Bindings frame by frame -/

namespace Scopes

/-- What the frames bind a name to, the innermost first. -/
def bindings (s : Scopes) (x : String) : List (Option Value) :=
  s.frames.map fun f => f[x]?

theorem bindings_eq (s : Scopes) (x : String) :
    s.bindings x = s.innermost[x]? :: s.outer.map fun f => f[x]? := by
  rw [bindings, frames_eq, List.map_cons]

/-- The visible value is the first one. -/
theorem get?_eq_findSome?_bindings (s : Scopes) (x : String) :
    s.get? x = (s.bindings x).findSome? id := by
  rw [bindings, List.findSome?_map, get?]
  rfl

@[simp] theorem bindings_push (s : Scopes) (x : String) :
    s.push.bindings x = none :: s.bindings x := by
  rw [bindings, frames_push, List.map_cons, Std.TreeMap.getElem?_emptyc, bindings]

theorem bindings_bind (s : Scopes) (x y : String) (v : Value) :
    (s.bind x v).bindings y =
      (if x = y then some v else s.innermost[y]?) :: s.outer.map fun f => f[y]? := by
  rw [bindings_eq, innermost_bind, outer_bind, Frame.getElem?_insert]

/-- The innermost frame is taken away, unless it is the only one. -/
theorem bindings_pop (s : Scopes) (x : String) :
    s.pop.bindings x = if s.depth = 1 then s.bindings x else (s.bindings x).tail := by
  obtain ⟨locals, global⟩ := s
  cases locals with
  | nil => rfl
  | cons f rest => simp [bindings, frames, pop, pop?, depth]

/-- A name that may not be stored keeps its bindings. -/
theorem Framed.bindings {X : List String} {s t : Scopes} (h : Framed X s t) {x : String}
    (hx : x ∉ X) : t.bindings x = s.bindings x := by
  rw [bindings_eq, bindings_eq, h.unchanged x hx, h.outer]

/-! ## Scopes that agree except on a name -/

/-- There are as many frames on both sides, and each binds the names other than `x` to the same
values as the other. -/
structure AgreeExcept (x : String) (s t : Scopes) : Prop where
  /-- as many frames -/
  depth : s.depth = t.depth
  /-- the same bindings of other names -/
  bindings : ∀ y, y ≠ x → s.bindings y = t.bindings y

/-- **Other names are looked up alike**, up to the suggestion for an unknown one. -/
theorem coupled_agreeExcept (x : String) :
    Coupled (fun y => y ≠ x) Fault.Alike (AgreeExcept x) where
  lookup {s t y} h hy := by
    rw [lookup, lookup, get?_eq_findSome?_bindings, get?_eq_findSome?_bindings, h.bindings y hy]
    rcases (t.bindings y).findSome? id with _ | v
    · -- the names to choose from may differ by `x`, so only the suggestion can
      exact .error rfl
    · exact .ok v
  bind {s t y} v h hy := by
    refine ⟨by rw [depth_bind, depth_bind, h.depth], fun z hz => ?_⟩
    -- only the innermost frame changes, so it is told apart from the others
    have hz := h.bindings z hz
    rw [bindings_eq, bindings_eq] at hz
    obtain ⟨hinnermost, houter⟩ := List.cons.inj hz
    rw [bindings_bind, bindings_bind, hinnermost, houter]
  push {s t} h := by
    refine ⟨by rw [depth_push, depth_push, h.depth], fun y hy => ?_⟩
    rw [bindings_push, bindings_push, h.bindings y hy]
  pop {s t} h := by
    refine ⟨by rw [depth_pop, depth_pop, h.depth], fun y hy => ?_⟩
    rw [bindings_pop, bindings_pop, h.bindings y hy, h.depth]

end Scopes

/-! ## Errors without their hints -/

/-- Faults that are alike are the same, or about the same unknown name. -/
theorem Fault.Alike.eq_or {f g : Fault} (h : f.Alike g) :
    f = g ∨ ∃ y hint hint', f = .undefinedVariable y hint ∧ g = .undefinedVariable y hint' := by
  cases f with
  | undefinedVariable y hint =>
    cases g
    case undefinedVariable y' hint' =>
      obtain rfl : y = y' := (Fault.undefinedVariable.inj h).1
      exact Or.inr ⟨y, hint, hint', rfl, rfl⟩
    all_goals cases h
  | _ =>
    left
    cases g
    case undefinedVariable => cases h
    all_goals exact h

/-- The same class at the same place, with messages that differ at most in the hint for an
unknown name. -/
structure RunError.SameButHint (e e' : RunError) : Prop where
  /-- the same class -/
  category : e.fault.category = e'.fault.category
  /-- the same place -/
  span : e.span = e'.span
  /-- the same message but for the hint -/
  message : e.fault.message = e'.fault.message ∨ ∃ y hint hint',
    e.fault.message = "undefined variable: " ++ y ++ Suggestion.hint hint ∧
      e'.fault.message = "undefined variable: " ++ y ++ Suggestion.hint hint'

theorem RunError.At.sameButHint {e e' : RunError} (h : At Fault.Alike e e') :
    e.SameButHint e' where
  category := h.1.category
  span := h.2
  message := by
    obtain heq | ⟨y, hint, hint', hy, hy'⟩ := h.1.eq_or
    · exact Or.inl (congrArg Fault.message heq)
    · exact Or.inr ⟨y, hint, hint', congrArg Fault.message hy, congrArg Fault.message hy'⟩

/-! ## Programs -/

section

variable {ι ο : Type} [LineSource ι] [LineSink ο]

/-- The bindings of a name that does not occur are the same after a run. -/
theorem Program.bindings_run {p : Program} {x : String} (hx : x ∉ p.names) (m : Machine ι ο) :
    (p.run.run m).2.scopes.bindings x = m.scopes.bindings x := by
  apply (Scopes.framed_law.run p m).bindings
  intro hwrites
  exact hx (p.writes_subset_names hwrites)

/-- **Noninterference.** Let two machines have the same input and output and the same variables,
except for one that does not occur in the program. Then the program ends on both in the same way,
or with the same error but for a hint. It has then written the same and has the same lines to
read, the variables are again the same with that exception, and the bindings of the exception are
on each machine what they were. -/
theorem Program.run_noninterference {p : Program} {x : String} (hx : x ∉ p.names)
    {m m' : Machine ι ο} (hscopes : m.scopes.AgreeExcept x m'.scopes) (hinput : m.input = m'.input)
    (houtput : m.output = m'.output) :
    Matches RunError.SameButHint (p.run.run m).1 (p.run.run m').1 ∧
      (p.run.run m).2.output = (p.run.run m').2.output ∧
      (p.run.run m).2.input = (p.run.run m').2.input ∧
      (p.run.run m).2.scopes.AgreeExcept x (p.run.run m').2.scopes ∧
      (p.run.run m).2.scopes.bindings x = m.scopes.bindings x ∧
      (p.run.run m').2.scopes.bindings x = m'.scopes.bindings x := by
  have hlockstep : Exec.Lockstep (fun y => y ≠ x) (fun _ => False) Fault.Alike
      (Scopes.AgreeExcept x) (Eq : ι → ι → Prop) (Eq : ο → ο → Prop) :=
    ⟨Fault.Alike.refl, Scopes.coupled_agreeExcept x, readLine_simulates Fault.Alike.refl,
      LineSink.coupled_eq⟩
  have hnames : ∀ y ∈ p.names, y ≠ x := by
    rintro y hy rfl
    exact hx hy
  obtain ⟨hresult, hparts⟩ := hlockstep.run_always hnames m m' ⟨hscopes, hinput, houtput⟩
  exact ⟨hresult.mono RunError.At.sameButHint, hparts.output, hparts.input, hparts.scopes,
    p.bindings_run hx m, p.bindings_run hx m'⟩

end

/-- `print coun` with and without a variable `count`: only one of the two errors has a hint. -/
theorem Program.run_noninterference_hint :
    ∃ (p : Program) (m m' : Machine (List String) LineBuffer),
      p = ⟨[.print ⟨0, 10⟩ (.var ⟨6, 10⟩ "coun")]⟩ ∧ "count" ∉ p.names ∧
      m.scopes = ⟨[], (∅ : Frame).insert "count" (.int 1), .byName⟩ ∧ m'.scopes = .empty ∧
      m.scopes.AgreeExcept "count" m'.scopes ∧ m.input = m'.input ∧ m.output = m'.output ∧
      (p.run.run m).1 = .error ⟨.undefinedVariable "coun" (some "count"), some ⟨0, 10⟩⟩ ∧
      (p.run.run m').1 = .error ⟨.undefinedVariable "coun" none, some ⟨0, 10⟩⟩ ∧
      Matches RunError.SameButHint (p.run.run m).1 (p.run.run m').1 ∧
      (p.run.run m).2.output = (p.run.run m').2.output ∧
      (p.run.run m).2.input = (p.run.run m').2.input ∧
      (p.run.run m).2.scopes.AgreeExcept "count" (p.run.run m').2.scopes ∧
      (p.run.run m).2.scopes.bindings "count" = m.scopes.bindings "count" ∧
      (p.run.run m').2.scopes.bindings "count" = m'.scopes.bindings "count" := by
  have hscopes :
      Scopes.AgreeExcept "count" ⟨[], (∅ : Frame).insert "count" (.int 1), .byName⟩ .empty := by
    refine ⟨rfl, fun y hy => ?_⟩
    simp [Scopes.bindings, Scopes.frames, Scopes.empty, Ne.symm hy]
  have hx : "count" ∉ Program.names ⟨[.print ⟨0, 10⟩ (.var ⟨6, 10⟩ "coun")]⟩ := by decide
  exact ⟨_, ⟨_, ["7"], .empty⟩, ⟨_, ["7"], .empty⟩, rfl, hx, rfl, rfl, hscopes, rfl, rfl,
    by with_unfolding_all rfl, by with_unfolding_all rfl,
    Program.run_noninterference hx hscopes rfl rfl⟩

end Scriptling

import Scriptling.Proofs.Interpreter.Coupling

/-!
# Two runs in lockstep

A program is run on two machines, whose scopes, inputs and outputs are related one by one
(`Machine.Parts`). Each of the three relations has its own condition, in which programs do not
occur: scopes have to answer alike for the names of the program and to stay related under new
bindings and frames (`Scopes.Coupled`), reading a line has to give the same on both sides, and so
has writing one (`LineSink.Coupled`). Then the two runs of the program end in the same way on
machines that are again related (`Exec.Lockstep.run`).

Faults on the two sides may differ as far as a relation between faults allows, and the comparison
may be given up when the first run fails in certain ways.
-/

namespace Scriptling

/-- Related faults at the same place. -/
def RunError.At (F : Fault → Fault → Prop) (e e' : RunError) : Prop :=
  F e.fault e'.fault ∧ e.span = e'.span

theorem RunError.At.locate {F : Fault → Fault → Prop} {e e' : RunError} (h : At F e e')
    (span : Span) : At F (e.locate span) (e'.locate span) := by
  obtain ⟨f, place⟩ := e
  obtain ⟨f', place'⟩ := e'
  obtain ⟨hfault, rfl⟩ : F f f' ∧ place = place' := h
  cases place <;> exact ⟨hfault, rfl⟩

/-! ## Scopes -/

namespace Scopes

/-- A name has a value if it can be looked up. -/
theorem get?_eq_toOption_lookup (s : Scopes) (x : String) : s.get? x = (s.lookup x).toOption := by
  rw [lookup]
  rcases s.get? x with _ | v <;> rfl

/-- A relation between scopes in which the names of `N` are looked up alike, and which is kept
when one of them is bound and when frames come and go. -/
structure Coupled (N : String → Prop) (F : Fault → Fault → Prop) (S : Scopes → Scopes → Prop) :
    Prop where
  /-- looking up a name -/
  lookup {s t : Scopes} {x : String} : S s t → N x → Matches F (s.lookup x) (t.lookup x)
  /-- binding a name in the innermost frame -/
  bind {s t : Scopes} {x : String} (v : Value) : S s t → N x → S (s.bind x v) (t.bind x v)
  /-- a new frame -/
  push {s t : Scopes} : S s t → S s.push t.push
  /-- one frame less -/
  pop {s t : Scopes} : S s t → S s.pop t.pop

/-- Scopes are coupled with themselves. -/
theorem coupled_eq {N : String → Prop} {F : Fault → Fault → Prop} (hF : ∀ f, F f f) :
    Coupled N F Eq where
  lookup := by
    rintro s _ x rfl _
    exact .refl hF _
  bind := by
    rintro s _ x v rfl _
    rfl
  push := congrArg push
  pop := congrArg pop

namespace Coupled

variable {N : String → Prop} {F : Fault → Fault → Prop} {S : Scopes → Scopes → Prop}
  {s t : Scopes} {x : String}

theorem get? (c : Coupled N F S) (h : S s t) (hx : N x) : s.get? x = t.get? x := by
  rw [get?_eq_toOption_lookup, get?_eq_toOption_lookup]
  exact (c.lookup h hx).toOption_eq

/-- An assignment depends on the kind of the visible value only. -/
theorem assign (c : Coupled N F S) (h : S s t) (hx : N x) (v : Value) :
    (∃ f, s.assign x v = .error f ∧ t.assign x v = .error f) ∨
      ∃ s' t', s.assign x v = .ok s' ∧ t.assign x v = .ok t' ∧ S s' t' := by
  have hbind := c.bind v h hx
  rw [Scopes.assign, Scopes.assign, c.get? h hx]
  rcases t.get? x with _ | old
  · exact Or.inr ⟨_, _, rfl, rfl, hbind⟩
  · by_cases hkind : old.kind = v.kind
    · simp only [hkind, if_true]
      exact Or.inr ⟨_, _, rfl, rfl, hbind⟩
    · simp only [hkind, if_false]
      exact Or.inl ⟨_, rfl, rfl⟩

end Coupled

end Scopes

/-! ## Outputs -/

/-- A relation between outputs in which writing and flushing come to the same, and which both
keep. -/
structure LineSink.Coupled {ο ο' : Type} [LineSink ο] [LineSink ο'] (O : ο → ο' → Prop) : Prop where
  /-- writing a line -/
  write {o : ο} {o' : ο'} (line : String) : O o o' →
    (LineSink.write o line).1 = (LineSink.write o' line).1 ∧
      O (LineSink.write o line).2 (LineSink.write o' line).2
  /-- flushing -/
  flush {o : ο} {o' : ο'} : O o o' →
    (LineSink.flush o).1 = (LineSink.flush o').1 ∧ O (LineSink.flush o).2 (LineSink.flush o').2

/-- Outputs are coupled with themselves. -/
theorem LineSink.coupled_eq {ο : Type} [LineSink ο] : Coupled (Eq : ο → ο → Prop) where
  write := by
    rintro o _ line rfl
    exact ⟨rfl, rfl⟩
  flush := by
    rintro o _ rfl
    exact ⟨rfl, rfl⟩

/-! ## Machines -/

section

variable {ι ο ι' ο' : Type}

/-- The parts of the two machines are related one by one. -/
structure Machine.Parts (S : Scopes → Scopes → Prop) (I : ι → ι' → Prop) (O : ο → ο' → Prop)
    (m : Machine ι ο) (m' : Machine ι' ο') : Prop where
  /-- the variables -/
  scopes : S m.scopes m'.scopes
  /-- the lines still to be read -/
  input : I m.input m'.input
  /-- what was written -/
  output : O m.output m'.output

/-- Machines with the same parts are the same. -/
theorem Machine.Parts.eq {m m' : Machine ι ο} (h : m.Parts Eq Eq Eq m') : m = m' := by
  obtain ⟨scopes, input, output⟩ := m
  obtain ⟨rfl, rfl, rfl⟩ := h
  rfl

/-- The machine after its output was written to. Writing a line and flushing are both of this
form. -/
def Machine.written (m : Machine ι ο) :
    Except WriteError Unit × ο → Except RunError Unit × Machine ι ο
  | (.ok (), output) => (.ok (), { m with output })
  | (.error why, output) => (.error ⟨.unwritable why, none⟩, { m with output })

namespace Exec

/-- Started on related machines, the first computation fails with a fault at which the comparison
stops, or the two come to the same and leave related machines. -/
abbrev InStep {α : Type} (stop : Fault → Prop) (F : Fault → Fault → Prop)
    (S : Scopes → Scopes → Prop) (I : ι → ι' → Prop) (O : ο → ο' → Prop) (x : Exec ι ο α)
    (y : Exec ι' ο' α) : Prop :=
  SimulatesUntil (fun e => stop e.fault) (Machine.Parts S I O) (RunError.At F) x y

/-- The span that is put on an error changes neither what it is about nor where the comparison
stops. -/
theorem inStep_located {α : Type} {stop : Fault → Prop} {F : Fault → Fault → Prop}
    {S : Scopes → Scopes → Prop} {I : ι → ι' → Prop} {O : ο → ο' → Prop} {x : Exec ι ο α}
    {y : Exec ι' ο' α} (h : InStep stop F S I O x y) (span : Span) :
    InStep stop F S I O (located span x) (located span y) := by
  refine SimulatesUntil.located h (fun he => RunError.At.locate he span) fun {e} he => ?_
  obtain ⟨f, _ | here⟩ := e <;> exact he

variable [LineSource ι] [LineSink ο] [LineSource ι'] [LineSink ο']

/-- What has to hold of the parts of two machines so that programs in which only names of `N`
occur run in lockstep on them, until the first run fails with a fault of `stop`. -/
structure Lockstep (N : String → Prop) (stop : Fault → Prop) (F : Fault → Fault → Prop)
    (S : Scopes → Scopes → Prop) (I : ι → ι' → Prop) (O : ο → ο' → Prop) : Prop where
  /-- faults that are the same are related -/
  fault (f : Fault) : F f f
  /-- scopes that answer alike -/
  scopes : Scopes.Coupled N F S
  /-- inputs that give the same lines -/
  input : SimulatesUntil stop I F (readLine : Eval ι String) (readLine : Eval ι' String)
  /-- outputs that take the same lines -/
  output : LineSink.Coupled O

namespace Lockstep

variable {N : String → Prop} {stop : Fault → Prop} {F : Fault → Fault → Prop}
  {S : Scopes → Scopes → Prop} {I : ι → ι' → Prop} {O : ο → ο' → Prop}

theorem require {α : Type} (c : Lockstep N stop F S I O) (r : Except Fault α) :
    InStep stop F S I O (require r : Exec ι ο α) (require r : Exec ι' ο' α) := by
  intro m m' h
  right
  cases r with
  | error f => exact ⟨.error ⟨c.fault f, rfl⟩, h⟩
  | ok a => exact ⟨.ok a, h⟩

theorem evaluate (c : Lockstep N stop F S I O) {e : Expr} (he : ∀ y ∈ e.names, N y) :
    InStep stop F S I O (evaluate e : Exec ι ο Value) (evaluate e : Exec ι' ο' Value) := by
  intro m m' h
  have hsim : SimulatesUntil stop I F (evalBy m.scopes.lookup e : Eval ι Value)
      (evalBy m'.scopes.lookup e : Eval ι' Value) := by
    apply evalBy_simulates c.fault c.input
    intro y hy
    exact c.scopes.lookup h.scopes (he y hy)
  have heval := hsim m.input m'.input h.input
  simp only [Exec.evaluate, ExceptT.run_mk, eval_eq_evalBy]
  rcases hm : (evalBy m.scopes.lookup e : Eval ι Value).run m.input with ⟨r, rest⟩
  rcases hm' : (evalBy m'.scopes.lookup e : Eval ι' Value).run m'.input with ⟨r', rest'⟩
  rw [hm, hm'] at heval
  obtain ⟨f, rfl, hf⟩ | ⟨hresult, hinput⟩ := heval
  · -- the statement fails with the fault of its expression, which stops the comparison
    exact Or.inl ⟨⟨f, none⟩, rfl, hf⟩
  · right
    cases hresult with
    | ok v => exact ⟨.ok v, h.scopes, hinput, h.output⟩
    | error hf => exact ⟨.error ⟨hf, rfl⟩, h.scopes, hinput, h.output⟩

theorem store (c : Lockstep N stop F S I O) {x : String} (v : Value) (hx : N x) :
    InStep stop F S I O (store x v : Exec ι ο Unit) (store x v : Exec ι' ο' Unit) := by
  intro m m' h
  right
  simp only [Exec.store, ExceptT.run_mk]
  obtain ⟨f, hm, hm'⟩ | ⟨s, s', hm, hm', hs⟩ := c.scopes.assign h.scopes hx v
  · simp only [hm, hm']
    exact ⟨.error ⟨c.fault f, rfl⟩, h⟩
  · simp only [hm, hm']
    exact ⟨.ok (), hs, h.input, h.output⟩

/-- Outputs that were written to with the same success. -/
theorem written (c : Lockstep N stop F S I O) {m : Machine ι ο} {m' : Machine ι' ο'}
    (h : m.Parts S I O m') {a : Except WriteError Unit × ο} {a' : Except WriteError Unit × ο'}
    (ha : a.1 = a'.1 ∧ O a.2 a'.2) :
    Matches (RunError.At F) (m.written a).1 (m'.written a').1 ∧
      (m.written a).2.Parts S I O (m'.written a').2 := by
  obtain ⟨r, o⟩ := a
  obtain ⟨r', o'⟩ := a'
  obtain ⟨hresult, hrest⟩ := ha
  obtain rfl : r = r' := hresult
  cases r with
  | error why => exact ⟨.error ⟨c.fault _, rfl⟩, h.scopes, h.input, hrest⟩
  | ok => exact ⟨.ok (), h.scopes, h.input, hrest⟩

theorem write (c : Lockstep N stop F S I O) (line : String) :
    InStep stop F S I O (write line : Exec ι ο Unit) (write line : Exec ι' ο' Unit) := by
  intro m m' h
  right
  exact c.written h (c.output.write line h.output)

theorem flush (c : Lockstep N stop F S I O) :
    Simulates (Machine.Parts S I O) (RunError.At F)
      (flush : Exec ι ο Unit) (flush : Exec ι' ο' Unit) := by
  intro m m' h
  exact c.written h (c.output.flush h.output)

theorem inFrame {α : Type} (c : Lockstep N stop F S I O) {x : Exec ι ο α} {y : Exec ι' ο' α}
    (hxy : InStep stop F S I O x y) :
    InStep stop F S I O (inFrame x) (inFrame y) := by
  intro m m' h
  have hpush : Machine.Parts S I O { m with scopes := m.scopes.push }
      { m' with scopes := m'.scopes.push } := ⟨c.scopes.push h.scopes, h.input, h.output⟩
  obtain hstop | ⟨hresult, hparts⟩ := hxy _ _ hpush
  · exact Or.inl hstop
  · exact Or.inr ⟨hresult, c.scopes.pop hparts.scopes, hparts.input, hparts.output⟩

/-- Lockstep is a comparison of two runs of the same text. -/
theorem comparison (c : Lockstep N stop F S I O) :
    Comparison id N (fun (x : Exec ι ο _) (y : Exec ι' ο' _) => InStep stop F S I O x y) where
  pure := .pure
  bind := .bind
  require := c.require
  evaluate e he := by
    rw [Expr.relocate_id]
    exact c.evaluate he
  store v hx := c.store v hx
  write := c.write
  located span _ _ h := inStep_located h span
  inFrame := c.inFrame
  flushed h := h.followedBy c.flush

/-- **Programs run in lockstep.** -/
theorem run (c : Lockstep N stop F S I O) {p : Program} (hp : ∀ y ∈ p.names, N y) :
    InStep stop F S I O (p.run : Exec ι ο Outcome) (p.run : Exec ι' ο' Outcome) := by
  have h := c.comparison.run hp
  rwa [Program.relocate_id] at h

/-- Programs run in lockstep to their ends if no fault stops the comparison. -/
theorem run_always (c : Lockstep N (fun _ => False) F S I O) {p : Program}
    (hp : ∀ y ∈ p.names, N y) :
    Simulates (Machine.Parts S I O) (RunError.At F)
      (p.run : Exec ι ο Outcome) (p.run : Exec ι' ο' Outcome) :=
  simulates_iff.mpr (c.run hp)

end Lockstep

end Exec

end

end Scriptling

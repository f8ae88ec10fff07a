import Scriptling.Proofs.Interpreter.Effects
import Scriptling.Proofs.Interpreter.Environment

/-!
# Two computations side by side

Two computations can be compared although their states are of different types and their
errors differ: from related states they come to the same value, or to related errors, and
the states are related again (`Simulates`). Comparisons can be put together along the steps
of the computations.

Some comparisons hold only as long as the first computation does not fail in a certain way.
From then on nothing is said about the second one (`SimulatesUntil`).

The evaluation of expressions is compared here too, for two ways of looking up names and two
inputs (`evalBy_simulates`).
-/

namespace Scriptling

variable {ε ε' σ τ α β : Type}

/-- Two results agree: the same value, or related errors. -/
inductive Matches (E : ε → ε' → Prop) : Except ε α → Except ε' α → Prop
  /-- both have the value -/
  | ok (a : α) : Matches E (.ok a) (.ok a)
  /-- both failed -/
  | error {e : ε} {e' : ε'} : E e e' → Matches E (.error e) (.error e')

/-- A result agrees with itself. -/
theorem Matches.refl {E : ε → ε → Prop} (hE : ∀ e, E e e) (r : Except ε α) : Matches E r r := by
  cases r with
  | error e => exact .error (hE e)
  | ok a => exact .ok a

/-- Results that agree, seen from the other side. -/
theorem Matches.symm {E : ε → ε' → Prop} {r : Except ε α} {r' : Except ε' α}
    (h : Matches E r r') : Matches (fun e' e => E e e') r' r := by
  cases h with
  | ok a => exact .ok a
  | error he => exact .error he

/-- Results that agree with the same one. -/
theorem Matches.trans {ε'' : Type} {E : ε → ε' → Prop} {E' : ε' → ε'' → Prop}
    {E'' : ε → ε'' → Prop} (hE : ∀ {e e' e''}, E e e' → E' e' e'' → E'' e e'')
    {r : Except ε α} {r' : Except ε' α} {r'' : Except ε'' α} (h : Matches E r r')
    (h' : Matches E' r' r'') : Matches E'' r r'' := by
  cases h with
  | ok a =>
    cases h' with
    | ok => exact .ok a
  | error he =>
    cases h' with
    | error he' => exact .error (hE he he')

/-- Related errors may be related more loosely. -/
theorem Matches.mono {E E' : ε → ε' → Prop} (hE : ∀ {e e'}, E e e' → E' e e')
    {r : Except ε α} {r' : Except ε' α} (h : Matches E r r') : Matches E' r r' := by
  cases h with
  | ok a => exact .ok a
  | error he => exact .error (hE he)

/-- Results that agree have the same value, if any. -/
theorem Matches.toOption_eq {E : ε → ε' → Prop} {r : Except ε α} {r' : Except ε' α}
    (h : Matches E r r') : r.toOption = r'.toOption := by
  cases h <;> rfl

/-- Of two results in order, the first error counts. -/
theorem Matches.seqLeft {E : ε → ε' → Prop} {r : Except ε α} {r' : Except ε' α}
    {u : Except ε β} {u' : Except ε' β} (hr : Matches E r r') (hu : Matches E u u') :
    Matches E (r <* u) (r' <* u') := by
  cases hr with
  | error he => exact .error he
  | ok a =>
    cases hu with
    | error he => exact .error he
    | ok b => exact .ok a

/-- Started in related states, the two computations give results that agree and end in
related states. -/
def Simulates (R : σ → τ → Prop) (E : ε → ε' → Prop) (x : ExceptT ε (StateM σ) α)
    (y : ExceptT ε' (StateM τ) α) : Prop :=
  ∀ s t, R s t → Matches E (x.run s).1 (y.run t).1 ∧ R (x.run s).2 (y.run t).2

/-- Started in related states, the first computation fails with an error at which the comparison
stops, or the two give results that agree and end in related states. -/
def SimulatesUntil (stop : ε → Prop) (R : σ → τ → Prop) (E : ε → ε' → Prop)
    (x : ExceptT ε (StateM σ) α) (y : ExceptT ε' (StateM τ) α) : Prop :=
  ∀ s t, R s t → (∃ e, (x.run s).1 = .error e ∧ stop e) ∨
    (Matches E (x.run s).1 (y.run t).1 ∧ R (x.run s).2 (y.run t).2)

namespace SimulatesUntil

variable {stop : ε → Prop} {R : σ → τ → Prop} {E : ε → ε' → Prop}

/-- A result that does not touch the state. -/
theorem lift {r : Except ε α} {r' : Except ε' α} (h : Matches E r r') :
    SimulatesUntil stop R E (liftM r : ExceptT ε (StateM σ) α)
      (liftM r' : ExceptT ε' (StateM τ) α) :=
  fun _ _ hR => Or.inr ⟨h, hR⟩

theorem pure (a : α) :
    SimulatesUntil stop R E (pure a : ExceptT ε (StateM σ) α)
      (pure a : ExceptT ε' (StateM τ) α) :=
  lift (.ok a)

/-- One step and what follows it. -/
theorem bind {x : ExceptT ε (StateM σ) α} {y : ExceptT ε' (StateM τ) α}
    {f : α → ExceptT ε (StateM σ) β} {g : α → ExceptT ε' (StateM τ) β}
    (hx : SimulatesUntil stop R E x y) (hf : ∀ a, SimulatesUntil stop R E (f a) (g a)) :
    SimulatesUntil stop R E (x >>= f) (y >>= g) := by
  intro s t h
  have hfirst := hx s t h
  rw [run_bind, run_bind]
  rcases hs : x.run s with ⟨r, s'⟩
  rcases ht : y.run t with ⟨r', t'⟩
  rw [hs, ht] at hfirst
  obtain ⟨e, rfl, he⟩ | ⟨hresult, hstate⟩ := hfirst
  · exact Or.inl ⟨e, rfl, he⟩
  · cases hresult with
    | ok a => exact hf a s' t' hstate
    | error he => exact Or.inr ⟨.error he, hstate⟩

/-- Two steps, of which the second is taken in any case and never stops the comparison. -/
theorem followedBy {x : ExceptT ε (StateM σ) α} {y : ExceptT ε' (StateM τ) α}
    {z : ExceptT ε (StateM σ) Unit} {w : ExceptT ε' (StateM τ) Unit}
    (hx : SimulatesUntil stop R E x y) (hz : Simulates R E z w) :
    SimulatesUntil stop R E (followedBy x z) (followedBy y w) := by
  intro s t h
  obtain ⟨e, hresult, he⟩ | ⟨hfirst, hmiddle⟩ := hx s t h
  · -- the error of the first step counts, whatever the second one does
    refine Or.inl ⟨e, ?_, he⟩
    change (x.run s).1 <* _ = _
    rw [hresult]
    rfl
  · obtain ⟨hsecond, hlast⟩ := hz _ _ hmiddle
    exact Or.inr ⟨hfirst.seqLeft hsecond, hlast⟩

/-- Putting places on the errors of both. -/
theorem located {ι ο ι' ο' : Type} {stop : RunError → Prop} {R : Machine ι ο → Machine ι' ο' → Prop}
    {E : RunError → RunError → Prop} {x : Exec ι ο α} {y : Exec ι' ο' α}
    (h : SimulatesUntil stop R E x y) {span span' : Span}
    (hE : ∀ {e e'}, E e e' → E (e.locate span) (e'.locate span'))
    (hstop : ∀ {e}, stop e → stop (e.locate span)) :
    SimulatesUntil stop R E (Exec.located span x) (Exec.located span' y) := by
  intro m m' hm
  have hxy := h m m' hm
  rw [Exec.run_located, Exec.run_located]
  rcases hx : x.run m with ⟨r, n⟩
  rcases hy : y.run m' with ⟨r', n'⟩
  rw [hx, hy] at hxy
  obtain ⟨e, rfl, he⟩ | ⟨hresult, hstate⟩ := hxy
  · exact Or.inl ⟨e.locate span, rfl, hstop he⟩
  · cases hresult with
    | ok a => exact Or.inr ⟨.ok a, hstate⟩
    | error he => exact Or.inr ⟨.error (hE he), hstate⟩

end SimulatesUntil

/-- A comparison that never stops. -/
theorem simulates_iff {R : σ → τ → Prop} {E : ε → ε' → Prop} {x : ExceptT ε (StateM σ) α}
    {y : ExceptT ε' (StateM τ) α} :
    Simulates R E x y ↔ SimulatesUntil (fun _ => False) R E x y := by
  simp [Simulates, SimulatesUntil]

namespace Simulates

variable {R : σ → τ → Prop} {E : ε → ε' → Prop}

/-- A result that does not touch the state. -/
theorem lift {r : Except ε α} {r' : Except ε' α} (h : Matches E r r') :
    Simulates R E (liftM r : ExceptT ε (StateM σ) α) (liftM r' : ExceptT ε' (StateM τ) α) :=
  fun _ _ hR => ⟨h, hR⟩

theorem pure (a : α) :
    Simulates R E (pure a : ExceptT ε (StateM σ) α) (pure a : ExceptT ε' (StateM τ) α) :=
  lift (.ok a)

theorem throw {e : ε} {e' : ε'} (he : E e e') :
    Simulates R E (throw e : ExceptT ε (StateM σ) α) (throw e' : ExceptT ε' (StateM τ) α) :=
  lift (.error he)

/-- One step and what follows it. -/
theorem bind {x : ExceptT ε (StateM σ) α} {y : ExceptT ε' (StateM τ) α}
    {f : α → ExceptT ε (StateM σ) β} {g : α → ExceptT ε' (StateM τ) β}
    (hx : Simulates R E x y) (hf : ∀ a, Simulates R E (f a) (g a)) :
    Simulates R E (x >>= f) (y >>= g) := by
  simp only [simulates_iff] at hx hf ⊢
  exact hx.bind hf

/-- Two steps, of which the second is taken in any case. -/
theorem followedBy {x : ExceptT ε (StateM σ) α} {y : ExceptT ε' (StateM τ) α}
    {z : ExceptT ε (StateM σ) Unit} {w : ExceptT ε' (StateM τ) Unit}
    (hx : Simulates R E x y) (hz : Simulates R E z w) :
    Simulates R E (followedBy x z) (followedBy y w) :=
  simulates_iff.mpr ((simulates_iff.mp hx).followedBy hz)

/-- Putting places on the errors of both. -/
theorem located {ι ο ι' ο' : Type} {R : Machine ι ο → Machine ι' ο' → Prop}
    {E : RunError → RunError → Prop} {x : Exec ι ο α} {y : Exec ι' ο' α} (h : Simulates R E x y)
    {span span' : Span} (hE : ∀ {e e'}, E e e' → E (e.locate span) (e'.locate span')) :
    Simulates R E (Exec.located span x) (Exec.located span' y) :=
  simulates_iff.mpr ((simulates_iff.mp h).located hE fun he => he)

end Simulates

/-! ## Expressions -/

/-- Evaluation uses the scopes for looking up names only. -/
theorem eval_eq_evalBy {ι : Type} [LineSource ι] (scopes : Scopes) (e : Expr) :
    (eval scopes e : Eval ι Value) = evalBy scopes.lookup e := by
  induction e with
  | logic _ l op r ihl ihr =>
    -- the two sides match on the connective with matchers of their own
    rewrite [eval, evalBy, ihl, ihr]
    rfl
  | _ => simp only [eval, evalBy, *]

section

variable {ι ι' : Type} [LineSource ι] [LineSource ι'] {stop : Fault → Prop}
  {I : ι → ι' → Prop} {F : Fault → Fault → Prop}

/-- **Expressions come to the same** if lines are read alike and the names that occur are looked
up alike. -/
theorem evalBy_simulates (hF : ∀ f, F f f)
    (hline : SimulatesUntil stop I F (readLine : Eval ι String) (readLine : Eval ι' String))
    {look look' : String → Except Fault Value} {e : Expr}
    (hlook : ∀ y ∈ e.names, Matches F (look y) (look' y)) :
    SimulatesUntil stop I F (evalBy look e : Eval ι Value) (evalBy look' e : Eval ι' Value) := by
  have shared {α : Type} (r : Except Fault α) :
      SimulatesUntil stop I F (liftM r : Eval ι α) (liftM r : Eval ι' α) := .lift (.refl hF r)
  induction e with
  | int _ n => exact .pure _
  | str _ s => exact .pure _
  | bool _ b => exact .pure _
  | var _ x => exact .lift (hlook x List.mem_cons_self)
  | arith _ l op r ihl ihr =>
    obtain ⟨hl, hr⟩ := List.forall_mem_append.mp hlook
    exact (ihl hl).bind fun a => (ihr hr).bind fun b => shared (op.onValues a b)
  | compare _ l op r ihl ihr =>
    obtain ⟨hl, hr⟩ := List.forall_mem_append.mp hlook
    exact (ihl hl).bind fun a => (ihr hr).bind fun b => shared (op.onValues a b)
  | logic _ l op r ihl ihr =>
    obtain ⟨hl, hr⟩ := List.forall_mem_append.mp hlook
    refine (ihl hl).bind fun v => (shared v.asBool).bind fun a => ?_
    rcases op.decided? a with _ | b
    · exact (ihr hr).bind fun w => (shared w.asBool).bind fun b => .pure _
    · exact .pure _
  | unary _ op e ih => exact (ih hlook).bind fun a => shared (op.onValue a)
  | length _ t ih => exact (ih hlook).bind fun a => (shared a.asStr).bind fun s => .pure _
  | position _ h n ihh ihn =>
    obtain ⟨hh, hn⟩ := List.forall_mem_append.mp hlook
    refine (ihh hh).bind fun a => (ihn hn).bind fun b => ?_
    exact (shared a.asStr).bind fun s => (shared b.asStr).bind fun t => .pure _
  | concatenate _ l r ihl ihr =>
    obtain ⟨hl, hr⟩ := List.forall_mem_append.mp hlook
    refine (ihl hl).bind fun a => (ihr hr).bind fun b => ?_
    exact (shared a.asStr).bind fun s => (shared b.asStr).bind fun t => .pure _
  | substring _ t b n iht ihb ihn =>
    obtain ⟨htb, hn⟩ := List.forall_mem_append.mp hlook
    obtain ⟨ht, hb⟩ := List.forall_mem_append.mp htb
    refine (iht ht).bind fun a => (ihb hb).bind fun b => (ihn hn).bind fun c => ?_
    refine (shared a.asStr).bind fun s => (shared b.asInt).bind fun i => ?_
    exact (shared c.asInt).bind fun n => .pure _
  | readInt _ => exact hline.bind fun line => shared (integerOfLine line)
  | readStr _ => exact hline.bind fun line => .pure _

end

/-- From the same input, the same line is read. -/
theorem readLine_simulates {ι : Type} [LineSource ι] {stop : Fault → Prop}
    {F : Fault → Fault → Prop} (hF : ∀ f, F f f) :
    SimulatesUntil stop Eq F (readLine : Eval ι String) readLine := by
  rintro input _ rfl
  exact Or.inr ⟨.refl hF _, rfl⟩

end Scriptling

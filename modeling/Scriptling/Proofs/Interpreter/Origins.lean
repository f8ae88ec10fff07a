import Scriptling.Proofs.Interpreter.Reached

/-!
# Where errors come from

The error of a run can be traced back. If a run fails, then it came to a statement whose own work
brought up the fault, and the error is at the place of this statement; and if a run comes to such a
statement, then the run fails there, whatever stands around it (`Program.run_error_origin`). Work
that fails ends the run, so there is only one such statement.

On its way out the error passes through all statements around its origin, and each of them tries to
put its span on it. At the origin it has none yet (`Raises.work_eq`), so it takes the span of the
statement that failed, and keeps it.
-/

namespace Scriptling

open LoopState (next)

section

variable {ι ο : Type} [LineSource ι] [LineSink ο] {s t u : Stmt} {m m' m₁ m₂ : Machine ι ο}
  {f f' : Fault}

/-! ## From the error back to its origin -/

/-- The error comes from a statement that is reached: its own work brought up the fault, and the
error is at its place. -/
def RunError.OriginatesIn (s : Stmt) (m : Machine ι ο) (e : RunError) : Prop :=
  ∃ t m₁, t.ReachedIn m₁ s m ∧ Raises m₁ t e.fault ∧ e.span = some t.span

theorem RunError.OriginatesIn.part {e : RunError} (henters : Enters u m₁ s m)
    (h : e.OriginatesIn u m₁) : e.OriginatesIn s m := by
  obtain ⟨t, m₂, hreached, horigin⟩ := h
  exact ⟨t, m₂, .part henters hreached, horigin⟩

/-- A loop that fails does so in one of its rounds. -/
theorem LoopState.exists_roundIn {span : Span} {x : String} {body : Stmt} {is : List Int}
    {e : RunError}
    (h : is.foldl (next span x body) (.going m) = .ended (.error e) m') :
    ∃ i m₁, RoundIn span x body i m₁ is m ∧
      next span x body (.going m₁) i = .ended (.error e) m' := by
  induction is generalizing m with
  | nil => cases h
  | cons i is ih =>
    rw [List.foldl_cons] at h
    rcases hnext : next span x body (.going m) i with m₁ | ⟨r, m₁⟩
    · rw [hnext] at h
      obtain ⟨j, m₂, hround, hend⟩ := ih h
      exact ⟨j, m₂, .later hnext hround, hend⟩
    · rw [hnext, foldl_next_ended] at h
      rw [h] at hnext
      exact ⟨i, m, .first is, hnext⟩

/-- A round fails to store its integer, or in the body. -/
theorem LoopState.next_eq_error {span : Span} {x : String} {body : Stmt} {i : Int} {e : RunError}
    (h : next span x body (.going m) i = .ended (.error e) m') :
    (∃ f, m.scopes.assign x (.int (.ofInt i)) = .error f ∧ e = ⟨f, span⟩) ∨
      ∃ scopes, m.scopes.assign x (.int (.ofInt i)) = .ok scopes ∧
        (exec body).run { m with scopes } = (.error e, m') := by
  simp only [next] at h
  split at h
  · next f hassign =>
    cases h
    exact Or.inl ⟨f, hassign, rfl⟩
  · next scopes hassign =>
    right
    refine ⟨scopes, hassign, ?_⟩
    split at h
    case h_5 hrun =>
      cases h
      exact hrun
    all_goals cases h

mutual

/-- **An error comes from a statement's own work**, and it is at the place of this statement. -/
theorem exec_originates : ∀ (s : Stmt) {m m' : Machine ι ο} {e : RunError},
    (exec s).run m = (.error e, m') → e.OriginatesIn s m
  | .assign span x e, m, m', err, h => by
    rw [run_exec_assign] at h
    split at h
    · next f input hvalue =>
      cases h
      exact ⟨_, m, .self, .value hvalue, rfl⟩
    · next v input hvalue =>
      split at h
      · next f hassign =>
        cases h
        exact ⟨_, m, .self, .store hvalue hassign, rfl⟩
      · cases h
  | .print span e, m, m', err, h => by
    rw [run_exec_print] at h
    split at h
    · next f input hvalue =>
      cases h
      exact ⟨_, m, .self, .shown hvalue, rfl⟩
    · next v input hvalue =>
      split at h
      · next why output hwrite =>
        cases h
        exact ⟨_, m, .self, .write hvalue hwrite, rfl⟩
      · cases h
  | .ifThen span cond yes, m, m', err, h => by
    rw [exec_ifThen, run_choice] at h
    split at h
    · next f input hcond =>
      cases h
      exact ⟨_, m, .self, .only hcond, rfl⟩
    · next b input hcond =>
      cases b
      · cases h
      · exact (exec_originates yes h).part (.only hcond rfl)
  | .ifThenElse span cond yes no, m, m', err, h => by
    rw [exec_ifThenElse, run_choice] at h
    split at h
    · next f input hcond =>
      cases h
      exact ⟨_, m, .self, .choice hcond, rfl⟩
    · next b input hcond =>
      cases b
      · exact (exec_originates no h).part (.no hcond rfl)
      · exact (exec_originates yes h).part (.yes hcond rfl)
  | .forTo span x first last body, m, m', err, h => by
    rw [run_exec_forTo] at h
    split at h
    · next f input hbounds =>
      cases h
      exact ⟨_, m, .self, .bounds hbounds, rfl⟩
    · next a b input hbounds =>
      have hended : (Int.range a.toInt (b.toInt + 1)).foldl (next span x body)
          (.going { m with input }) = .ended (.error err) m' := by
        generalize (Int.range a.toInt (b.toInt + 1)).foldl _ _ = state at h
        cases state with
        | going => cases h
        | ended r m₁ =>
          cases h
          rfl
      obtain ⟨i, m₁, hround, hnext⟩ := LoopState.exists_roundIn hended
      obtain ⟨f, hassign, rfl⟩ | ⟨scopes, hassign, hbody⟩ := LoopState.next_eq_error hnext
      · exact ⟨_, m, .self, .bind hbounds hround hassign, rfl⟩
      · exact (exec_originates body hbody).part (.round hbounds hround hassign rfl)
  | .block span body, m, m', err, h => by
    rw [run_exec_block] at h
    rcases hbody : (execAll body).run { m with scopes := m.scopes.push } with ⟨r, m₁⟩
    rw [hbody] at h
    cases h
    obtain ⟨s, m₂, hnext, horigin⟩ := execAll_originates body hbody
    exact horigin.part (.block hnext)
  | .break_ _, _, _, _, h | .continue_ _, _, _, _, h | .exit_ _, _, _, _, h => by
    cases h

/-- In a sequence, the error comes from the statement that failed. -/
theorem execAll_originates : ∀ (body : List Stmt) {m m' : Machine ι ο} {e : RunError},
    (execAll body).run m = (.error e, m') →
      ∃ s m₁, NextIn s m₁ body m ∧ e.OriginatesIn s m₁
  | [], _, _, _, h => by
    cases h
  | s :: rest, m, m', e, h => by
    rw [execAll_cons, run_bind] at h
    split at h
    · next flow m₁ hs =>
      cases flow with
      | normal =>
        obtain ⟨s', m₂, hnext, horigin⟩ := execAll_originates rest h
        exact ⟨s', m₂, .later hs hnext, horigin⟩
      | jump | exit => cases h
    · next e' m₁ hs =>
      cases h
      exact ⟨s, m, .first rest, exec_originates s hs⟩

end

/-! ## From the origin to the error -/

/-- A loop ends with the round that ends it. -/
theorem RoundIn.foldl_eq {span : Span} {x : String} {body : Stmt} {i : Int} {is : List Int}
    {r : Except RunError Flow} (h : RoundIn span x body i m₁ is m)
    (hend : next span x body (.going m₁) i = .ended r m') :
    is.foldl (next span x body) (.going m) = .ended r m' := by
  induction h with
  | first rest => rw [List.foldl_cons, hend, LoopState.foldl_next_ended]
  | later hnext _ ih => rw [List.foldl_cons, hnext, ih]

theorem NextIn.execAll_eq {body : List Stmt} {e : RunError} (h : NextIn t m₁ body m)
    (hfail : (exec t).run m₁ = (.error e, m')) : (execAll body).run m = (.error e, m') := by
  induction h with
  | first rest => rw [execAll_cons, run_bind, hfail]
  | later hs _ ih =>
    rw [execAll_cons, run_bind, hs]
    exact ih

theorem LoopState.next_of_assign_error {span : Span} {x : String} {body : Stmt} {i : Int}
    (hassign : m.scopes.assign x (.int (.ofInt i)) = .error f) :
    next span x body (.going m) i = .ended (.error ⟨f, span⟩) m := by
  simp only [next, hassign]

theorem LoopState.next_of_body_error {span : Span} {x : String} {body : Stmt} {i : Int}
    {e : RunError} {scopes : Scopes} (hassign : m.scopes.assign x (.int (.ofInt i)) = .ok scopes)
    (hbody : (exec body).run { m with scopes } = (.error e, m')) :
    next span x body (.going m) i = .ended (.error e) m' := by
  simp only [next, hassign, hbody]

/-- Which rounds a loop comes to has nothing to do with where it stands. -/
theorem RoundIn.at_span {span : Span} {x : String} {body : Stmt} {i : Int} {is : List Int}
    (h : RoundIn span x body i m₁ is m) (span' : Span) : RoundIn span' x body i m₁ is m := by
  induction h with
  | first rest => exact .first rest
  | @later j rest m m₂ hnext _ ih =>
    refine .later ?_ ih
    unfold LoopState.next at hnext ⊢
    rcases hassign : m.scopes.assign x (.int (.ofInt j)) with g | scopes
    · simp [hassign] at hnext
    · simpa [hassign] using hnext

/-- If its own work fails, a statement gives the error whatever span it puts on errors. -/
theorem Raises.located_eq (h : Raises m t f) (span' : Span) :
    ∃ m', (Exec.located span' (work t)).run m = (.error ⟨f, some span'⟩, m') := by
  cases h with
  | @value span x e f input hvalue =>
    change ∃ m', (exec (.assign span' x e)).run m = _
    rw [run_exec_assign, hvalue]
    exact ⟨_, rfl⟩
  | @store span x e f v input hvalue hassign =>
    change ∃ m', (exec (.assign span' x e)).run m = _
    rw [run_exec_assign, hvalue]
    simp only [hassign]
    exact ⟨_, rfl⟩
  | @shown span e f input hvalue =>
    change ∃ m', (exec (.print span' e)).run m = _
    rw [run_exec_print, hvalue]
    exact ⟨_, rfl⟩
  | @write span e v input why output hvalue hwrite =>
    change ∃ m', (exec (.print span' e)).run m = _
    rw [run_exec_print, hvalue]
    simp only [hwrite]
    exact ⟨_, rfl⟩
  | @only span cond yes f input hcond =>
    change ∃ m', (exec (.ifThen span' cond yes)).run m = _
    rw [exec_ifThen, run_choice, hcond]
    exact ⟨_, rfl⟩
  | @choice span cond yes no f input hcond =>
    change ∃ m', (exec (.ifThenElse span' cond yes no)).run m = _
    rw [exec_ifThenElse, run_choice, hcond]
    exact ⟨_, rfl⟩
  | @bounds span x first last body f input hbounds =>
    change ∃ m', (exec (.forTo span' x first last body)).run m = _
    rw [run_exec_forTo, hbounds]
    exact ⟨_, rfl⟩
  | @bind m₁ span x first last body a b input i f hbounds hround hassign =>
    change ∃ m', (exec (.forTo span' x first last body)).run m = _
    have hround' := hround.at_span span'
    rw [run_exec_forTo, hbounds]
    simp only [hround'.foldl_eq (LoopState.next_of_assign_error hassign)]
    exact ⟨_, rfl⟩

/-- A statement whose own work fails has an error at its own place. -/
theorem Raises.exec_eq (h : Raises m t f) :
    ∃ m', (exec t).run m = (.error ⟨f, some t.span⟩, m') :=
  h.located_eq t.span

omit [LineSource ι] [LineSink ο] in
/-- An error that takes whatever span is put on it has none. -/
theorem Exec.span_eq_none {α : Type} {x : Exec ι ο α}
    (h : ∀ span, ∃ m', (located span x).run m = (.error ⟨f, some span⟩, m')) :
    ∃ m', x.run m = (.error ⟨f, none⟩, m') := by
  rcases hx : x.run m with ⟨⟨g, _ | here⟩ | a, m'⟩
  · obtain ⟨_, heq⟩ := h ⟨0, 0⟩
    rw [run_located, hx] at heq
    cases heq
    exact ⟨m', rfl⟩
  · -- another span would not have been taken
    obtain ⟨_, heq⟩ := h ⟨here.start + 1, here.stop⟩
    rw [run_located, hx] at heq
    have hspan := congrArg RunError.span (Except.error.inj (Prod.mk.inj heq).1)
    have hstart := congrArg Span.start (Option.some.inj hspan)
    exact absurd hstart (Nat.ne_of_lt (Nat.lt_succ_self here.start))
  · obtain ⟨_, heq⟩ := h ⟨0, 0⟩
    rw [run_located, hx] at heq
    cases heq

/-- **At its origin an error has no span.** It is the statement whose work failed that puts one
on it. -/
theorem Raises.work_eq (h : Raises m t f) : ∃ m', (work t).run m = (.error ⟨f, none⟩, m') :=
  Exec.span_eq_none h.located_eq

/-- The error of a part is the error of the statement: it keeps its place. -/
theorem Enters.exec_eq {e : RunError} (h : Enters t m₁ s m)
    (hfail : (exec t).run m₁ = (.error e, m₂)) : ∃ m', (exec s).run m = (.error e, m') := by
  cases h with
  | only hcond hm₁ =>
    subst hm₁
    rw [exec_ifThen, run_choice, hcond]
    exact ⟨m₂, hfail⟩
  | yes hcond hm₁ | no hcond hm₁ =>
    subst hm₁
    rw [exec_ifThenElse, run_choice, hcond]
    exact ⟨m₂, hfail⟩
  | round hbounds hround hassign hm₁ =>
    subst hm₁
    rw [run_exec_forTo, hbounds]
    simp only [hround.foldl_eq (LoopState.next_of_body_error hassign hfail)]
    exact ⟨_, rfl⟩
  | block hnext =>
    rw [run_exec_block, hnext.execAll_eq hfail]
    exact ⟨_, rfl⟩

/-- **An error passes through all statements around it** and stays what it is. -/
theorem Stmt.ReachedIn.exec_eq (h : t.ReachedIn m₁ s m) (hraises : Raises m₁ t f) :
    ∃ m', (exec s).run m = (.error ⟨f, some t.span⟩, m') := by
  induction h with
  | self => exact hraises.exec_eq
  | part henters _ ih =>
    obtain ⟨m₂, hfail⟩ := ih
    exact henters.exec_eq hfail

/-! ## There is one origin -/

/-- Only one statement of a sequence fails. -/
theorem NextIn.unique {body : List Stmt} {e e' : RunError} {n n' : Machine ι ο}
    (ht : NextIn t m₁ body m) (hu : NextIn u m₂ body m) (hfail : (exec t).run m₁ = (.error e, n))
    (hfail' : (exec u).run m₂ = (.error e', n')) : t = u ∧ m₁ = m₂ := by
  induction ht with
  | first rest =>
    cases hu with
    | first => exact ⟨rfl, rfl⟩
    | later hs _ =>
      rw [hfail] at hs
      cases hs
  | later hs _ ih =>
    cases hu with
    | first =>
      rw [hfail'] at hs
      cases hs
    | later hs' hu =>
      rw [hs] at hs'
      cases hs'
      exact ih hu

/-- Only one round of a loop is its end. -/
theorem RoundIn.unique {span : Span} {x : String} {body : Stmt} {i j : Int} {is : List Int}
    {r r' : Except RunError Flow} {n n' : Machine ι ο} (hi : RoundIn span x body i m₁ is m)
    (hj : RoundIn span x body j m₂ is m) (hend : next span x body (.going m₁) i = .ended r n)
    (hend' : next span x body (.going m₂) j = .ended r' n') : i = j ∧ m₁ = m₂ := by
  induction hi with
  | first rest =>
    cases hj with
    | first => exact ⟨rfl, rfl⟩
    | later hnext _ =>
      rw [hend] at hnext
      cases hnext
  | later hnext _ ih =>
    cases hj with
    | first =>
      rw [hend'] at hnext
      cases hnext
    | later hnext' hj =>
      rw [hnext] at hnext'
      cases hnext'
      exact ih hj

/-- Only one part of a statement fails. -/
theorem Enters.unique {e e' : RunError} {n n' : Machine ι ο} (ht : Enters t m₁ s m)
    (hu : Enters u m₂ s m) (hfail : (exec t).run m₁ = (.error e, n))
    (hfail' : (exec u).run m₂ = (.error e', n')) : t = u ∧ m₁ = m₂ := by
  cases ht with
  | only hcond hm₁ =>
    cases hu with
    | only hcond' hm₂ =>
      rw [hcond] at hcond'
      cases hcond'
      exact ⟨rfl, hm₁.trans hm₂.symm⟩
  | yes hcond hm₁ =>
    cases hu with
    | yes hcond' hm₂ =>
      rw [hcond] at hcond'
      cases hcond'
      exact ⟨rfl, hm₁.trans hm₂.symm⟩
    | no hcond' =>
      -- the condition has one answer, so the other branch is not entered
      rw [hcond] at hcond'
      cases hcond'
  | no hcond hm₁ =>
    cases hu with
    | yes hcond' =>
      rw [hcond] at hcond'
      cases hcond'
    | no hcond' hm₂ =>
      rw [hcond] at hcond'
      cases hcond'
      exact ⟨rfl, hm₁.trans hm₂.symm⟩
  | round hbounds hround hassign hm₁ =>
    cases hu with
    | round hbounds' hround' hassign' hm₂ =>
      rw [hbounds] at hbounds'
      cases hbounds'
      subst hm₁ hm₂
      obtain ⟨rfl, rfl⟩ := hround.unique hround' (LoopState.next_of_body_error hassign hfail)
        (LoopState.next_of_body_error hassign' hfail')
      rw [hassign] at hassign'
      cases hassign'
      exact ⟨rfl, rfl⟩
  | block hnext =>
    cases hu with
    | block hnext' => exact hnext.unique hnext' hfail hfail'

/-- A statement whose own work fails has no part that fails. -/
theorem Raises.not_enters {e : RunError} {n : Machine ι ο} (h : Raises m s f)
    (hu : Enters u m₁ s m) : (exec u).run m₁ ≠ (.error e, n) := by
  intro hfail
  cases hu with
  | only hcond =>
    cases h with
    | only herror =>
      rw [hcond] at herror
      cases herror
  | yes hcond | no hcond =>
    cases h with
    | choice herror =>
      rw [hcond] at herror
      cases herror
  | round hbounds hround hassign hm₁ =>
    cases h with
    | bounds herror =>
      rw [hbounds] at herror
      cases herror
    | bind hbounds' hround' hassign' =>
      -- the round that cannot store its integer comes before the one that executes the body, or
      -- is the same
      rw [hbounds] at hbounds'
      cases hbounds'
      subst hm₁
      obtain ⟨rfl, rfl⟩ := hround.unique hround' (LoopState.next_of_body_error hassign hfail)
        (LoopState.next_of_assign_error hassign')
      rw [hassign] at hassign'
      cases hassign'
  | block => cases h

/-- **There is one origin.** Of the statements that are reached, the own work of only one fails. -/
theorem Stmt.ReachedIn.unique (ht : t.ReachedIn m₁ s m) (hu : u.ReachedIn m₂ s m)
    (hraises : Raises m₁ t f) (hraises' : Raises m₂ u f') : t = u ∧ m₁ = m₂ := by
  induction ht with
  | self =>
    cases hu with
    | self => exact ⟨rfl, rfl⟩
    | part henters hu =>
      obtain ⟨n, hfail⟩ := hu.exec_eq hraises'
      exact absurd hfail (hraises.not_enters henters)
  | part henters hreached ih =>
    obtain ⟨n, hfail⟩ := hreached.exec_eq hraises
    cases hu with
    | self => exact absurd hfail (hraises'.not_enters henters)
    | part henters' hu =>
      obtain ⟨n', hfail'⟩ := hu.exec_eq hraises'
      obtain ⟨rfl, rfl⟩ := henters.unique henters' hfail hfail'
      exact ih hu

/-! ## Programs -/

/-- To run the program on `m` is to come to execute `t` on `m'`. -/
def Program.Reaches (p : Program) (m : Machine ι ο) (t : Stmt) (m' : Machine ι ο) : Prop :=
  ∃ s m₁, NextIn s m₁ p.body m ∧ t.ReachedIn m' s m₁

/-- A program whose statement fails fails with its error. -/
theorem NextIn.runAll_eq {body : List Stmt} {e : RunError} (h : NextIn t m₁ body m)
    (hfail : (exec t).run m₁ = (.error e, m')) : (runAll body).run m = (.error e, m') := by
  induction h with
  | first rest => rw [runAll, run_bind, hfail]
  | later hs _ ih =>
    rw [runAll, run_bind, hs]
    exact ih

/-- A program that fails, and not for a stray jump, does so in one of its statements. -/
theorem runAll_originates {body : List Stmt} {e : RunError}
    (h : (runAll body).run m = (.error e, m')) (he : e.fault.category ≠ .strayControl) :
    ∃ s m₁, NextIn s m₁ body m ∧ e.OriginatesIn s m₁ := by
  induction body generalizing m with
  | nil => cases h
  | cons s rest ih =>
    rw [runAll, run_bind] at h
    split at h
    · next flow m₁ hs =>
      cases flow with
      | normal =>
        obtain ⟨s', m₂, hnext, horigin⟩ := ih h
        exact ⟨s', m₂, .later hs hnext, horigin⟩
      | exit => cases h
      | jump j =>
        cases h
        exact absurd rfl he
    · next e' m₁ hs =>
      cases h
      exact ⟨s, m, .first rest, exec_originates s hs⟩

theorem Program.Reaches.mem_nodes {p : Program} (h : p.Reaches m t m') : .stmt t ∈ p.nodes := by
  obtain ⟨s, m₁, hnext, hreached⟩ := h
  exact List.mem_flatMap.mpr ⟨s, hnext.mem, hreached.mem_nodes⟩

theorem Program.Reaches.unique {p : Program} (ht : p.Reaches m t m₁) (hu : p.Reaches m u m₂)
    (hraises : Raises m₁ t f) (hraises' : Raises m₂ u f') : t = u ∧ m₁ = m₂ := by
  obtain ⟨s, n, hnext, ht⟩ := ht
  obtain ⟨s', n', hnext', hu⟩ := hu
  obtain ⟨_, hfail⟩ := ht.exec_eq hraises
  obtain ⟨_, hfail'⟩ := hu.exec_eq hraises'
  obtain ⟨rfl, rfl⟩ := hnext.unique hnext' hfail hfail'
  exact ht.unique hu hraises hraises'

/-- What happens in the statements of a program is not changed by the flush at its end. -/
theorem Program.Reaches.run_eq {p : Program} (h : p.Reaches m t m₁) (hraises : Raises m₁ t f) :
    ∃ m', p.run.run m = (.error ⟨f, some t.span⟩, m') := by
  obtain ⟨s, m₂, hnext, hreached⟩ := h
  obtain ⟨m₃, hfail⟩ := hreached.exec_eq hraises
  refine ⟨(Exec.flush.run m₃).2, ?_⟩
  simp only [Program.run, followedBy, ExceptT.run_mk, hnext.runAll_eq hfail]
  rfl

/-- **Errors are at the statement whose own work failed.** If a program fails, for another reason
than a stray jump and with an output that can be flushed, then the run came to an assignment, an
output, a choice or a loop of the program whose own work brought up the fault. There the error had
no span; this statement put its own on it, and every further one is put on it in vain. Whenever a
run comes to a statement whose own work fails, the run has this fault at the place of this
statement, whatever statements are around it; and no other statement that is executed in the run
fails in its own work, be it around this one or in it. All errors that come out of a statement have
a span that stays. -/
theorem Program.run_error_origin (hflush : ∀ o : ο, (LineSink.flush o).1 = .ok ()) (p : Program)
    (m : Machine ι ο) :
    (∀ e m', p.run.run m = (.error e, m') → e.fault.category ≠ .strayControl →
      ∃ t m₁, p.Reaches m t m₁ ∧ Raises m₁ t e.fault ∧
        (∃ n, (work t).run m₁ = (.error ⟨e.fault, none⟩, n)) ∧ e.span = some t.span ∧
        (∀ outer : Span, e.locate outer = e) ∧ .stmt t ∈ p.nodes ∧ t.works = true) ∧
    (∀ t m₁ f, p.Reaches m t m₁ → Raises m₁ t f →
      (∃ m', p.run.run m = (.error ⟨f, some t.span⟩, m')) ∧
      ∀ u m₂ f', p.Reaches m u m₂ → Raises m₂ u f' → u = t ∧ m₂ = m₁) ∧
    ∀ (s : Stmt) (outer : Span), Exec.located outer (exec s : Exec ι ο Flow) = exec s := by
  refine ⟨fun e m' hrun he => ?_, fun t m₁ f hreaches hraises => ⟨?_, ?_⟩,
    fun s outer => Exec.located_exec outer s⟩
  · obtain ⟨m₁, hbody⟩ | ⟨m₁, herror⟩ := error_of_followedBy hrun
    · obtain ⟨s, m₂, hnext, t, m₃, hreached, hraises, hspan⟩ := runAll_originates hbody he
      have hreaches : p.Reaches m t m₃ := ⟨s, m₂, hnext, hreached⟩
      refine ⟨t, m₃, hreaches, hraises, hraises.work_eq, hspan, fun outer => ?_,
        hreaches.mem_nodes, hraises.works⟩
      obtain ⟨f, place⟩ := e
      obtain rfl : place = some t.span := hspan
      exact RunError.locate_some outer t.span f
    · exact absurd herror (Exec.run_flush_ne_error hflush)
  · exact hreaches.run_eq hraises
  · intro u m₂ f' hu hraises'
    obtain ⟨rfl, rfl⟩ := hreaches.unique hu hraises hraises'
    exact ⟨rfl, rfl⟩

end

/-- In `for i := 1 to 2 do begin print("a"); if true then print(1 / 0) end` the error is at the
second `print`, and neither at the choice nor at the block nor at the loop. -/
theorem Program.run_error_origin_nested :
    ∃ (m : Machine (List String) LineBuffer) (failing : Stmt) (p : Program),
      m = .start [] .empty ∧
      failing = .print ⟨50, 62⟩ (.arith ⟨56, 61⟩ (.int ⟨56, 57⟩ 1) .div (.int ⟨60, 61⟩ 0)) ∧
      p = ⟨[.forTo ⟨0, 66⟩ "i" (.int ⟨9, 10⟩ 1) (.int ⟨14, 15⟩ 2)
        (.block ⟨19, 66⟩ [.print ⟨25, 35⟩ (.str ⟨31, 34⟩ "a"),
          .ifThen ⟨37, 62⟩ (.bool ⟨40, 44⟩ true) failing])]⟩ ∧
      (∀ o : LineBuffer, (LineSink.flush o).1 = .ok ()) ∧
      ∃ m' e, p.run.run m = (.error e, m') ∧ m'.output.lines = ["a"] ∧
        e = ⟨.divisionByZero, some failing.span⟩ ∧ e.fault.category ≠ .strayControl ∧
        ∃ t m₁, p.Reaches m t m₁ ∧ Raises m₁ t e.fault ∧
          (∃ n, (work t).run m₁ = (.error ⟨e.fault, none⟩, n)) ∧ e.span = some t.span ∧
          (∀ outer : Span, e.locate outer = e) ∧ .stmt t ∈ p.nodes ∧ t.works = true := by
  let m : Machine (List String) LineBuffer := .start [] .empty
  let failing : Stmt :=
    .print ⟨50, 62⟩ (.arith ⟨56, 61⟩ (.int ⟨56, 57⟩ 1) .div (.int ⟨60, 61⟩ 0))
  let p : Program := ⟨[.forTo ⟨0, 66⟩ "i" (.int ⟨9, 10⟩ 1) (.int ⟨14, 15⟩ 2)
    (.block ⟨19, 66⟩ [.print ⟨25, 35⟩ (.str ⟨31, 34⟩ "a"),
      .ifThen ⟨37, 62⟩ (.bool ⟨40, 44⟩ true) failing])]⟩
  have hflush : ∀ o : LineBuffer, (LineSink.flush o).1 = .ok () := fun _ => rfl
  have hrun : p.run.run m =
      (.error ⟨.divisionByZero, some ⟨50, 62⟩⟩, (p.run.run m).2) := by
    with_unfolding_all rfl
  have hlines : (p.run.run m).2.output.lines = ["a"] := by
    with_unfolding_all rfl
  have hcategory : Fault.divisionByZero.category ≠ .strayControl := by decide
  exact ⟨m, failing, p, rfl, rfl, rfl, hflush, _, _, hrun, hlines, rfl, hcategory,
    (Program.run_error_origin hflush p m).1 _ _ hrun hcategory⟩

end Scriptling

import Scriptling.Proofs.Interpreter.Results
import Scriptling.Proofs.Interpreter.Scopes
import Scriptling.Proofs.Syntax.Nodes

/-!
# Where jumps come from

A `break` or `continue` is felt outside the statement that holds it only if it stands in no
loop of that statement (`Stmt.LooseIn`): a loop takes the jumps of its body and hands on
nothing but an `exit`. So the text of a statement says in which ways its execution can end
(`Flow.BackedBy`).

That a jump was taken by no loop is a fault of the program as a whole. No statement reports
it by itself, so where it is reported there was a statement at the top that ended in a jump.
-/

namespace Scriptling

/-- The statement that makes the jump. -/
def LoopJump.stmt (span : Span) : LoopJump → Stmt
  | break_ => .break_ span
  | continue_ => .continue_ span

namespace Stmt

/-- `t` is the statement, or stands in it but not in the body of a loop in it. -/
inductive LooseIn (t : Stmt) : Stmt → Prop
  /-- it is the statement -/
  | self : LooseIn t t
  /-- it stands in the only branch of a choice -/
  | only (span : Span) (cond : Expr) {yes : Stmt} :
      LooseIn t yes → LooseIn t (.ifThen span cond yes)
  /-- it stands in the first branch of a choice -/
  | yes (span : Span) (cond : Expr) {yes : Stmt} (no : Stmt) :
      LooseIn t yes → LooseIn t (.ifThenElse span cond yes no)
  /-- it stands in the second branch of a choice -/
  | no (span : Span) (cond : Expr) (yes : Stmt) {no : Stmt} :
      LooseIn t no → LooseIn t (.ifThenElse span cond yes no)
  /-- it stands in a statement of a block -/
  | block (span : Span) {body : List Stmt} {s : Stmt} :
      s ∈ body → LooseIn t s → LooseIn t (.block span body)

/-- The jump stands in the statement, and in no loop there. -/
def Jumps (j : LoopJump) (s : Stmt) : Prop :=
  ∃ span, (j.stmt span).LooseIn s

/-- An `exit` stands in the statement. -/
def Exits (s : Stmt) : Prop :=
  ∃ span, .stmt (.exit_ span) ∈ s.nodes

/-- Nothing that stands in a loop is loose there. -/
theorem not_jumps_forTo (j : LoopJump) (span : Span) (x : String) (first last : Expr)
    (body : Stmt) : ¬ Jumps j (.forTo span x first last body) := by
  rintro ⟨here, hloose⟩
  cases j <;> cases hloose

end Stmt

/-- The statement holds what it takes to go on in this way. -/
def Flow.BackedBy (s : Stmt) : Flow → Prop
  | .normal => True
  | .jump j => s.Jumps j
  | .exit => s.Exits

/-- What backs a part that is in no loop backs the whole. -/
theorem Flow.BackedBy.mono {s s' : Stmt} (hloose : ∀ t, Stmt.LooseIn t s → Stmt.LooseIn t s')
    (hnodes : ∀ x ∈ s.nodes, x ∈ s'.nodes) {flow : Flow} (h : flow.BackedBy s) :
    flow.BackedBy s' := by
  cases flow with
  | normal => trivial
  | jump j =>
    obtain ⟨span, ht⟩ := h
    exact ⟨span, hloose _ ht⟩
  | exit =>
    obtain ⟨span, hexit⟩ := h
    exact ⟨span, hnodes _ hexit⟩

/-! ## Actions of a statement -/

/-- The error is not about a jump that no loop took. -/
def RunError.Inner (e : RunError) : Prop :=
  e.fault.category ≠ .strayControl

/-- The fault says what an error is about, and not the place. -/
theorem RunError.Inner.locate {e : RunError} (h : e.Inner) (span : Span) :
    (e.locate span).Inner := by
  obtain ⟨f, _ | here⟩ := e <;> exact h

theorem RunError.inner_of_ofExpr {f : Fault} (h : f.OfExpr) (span : Option Span) :
    RunError.Inner ⟨f, span⟩ := by
  intro hstray
  rw [Fault.OfExpr, hstray] at h
  exact absurd h (by decide)

section

variable {ι ο α : Type}

theorem Exec.located_ends {P : α → Prop} {x : Exec ι ο α} (h : Ends P RunError.Inner x)
    (span : Span) : Ends P RunError.Inner (located span x) := by
  intro m
  have hx := h m
  rw [run_located]
  rcases hrun : x.run m with ⟨e | a, m'⟩
  · rw [hrun] at hx
    exact RunError.Inner.locate hx span
  · rw [hrun] at hx
    exact hx

theorem Exec.require_ends {P : α → Prop} {Q : Fault → Prop} {r : Except Fault α}
    (h : Meets P Q r) (hQ : ∀ f, Q f → f.category ≠ .strayControl) :
    Ends P RunError.Inner (require r : Exec ι ο α) := by
  intro m
  cases r with
  | ok a => exact h
  | error f => exact hQ f h

theorem Exec.evaluate_ends [LineSource ι] (e : Expr) :
    Ends (fun _ => True) RunError.Inner (evaluate e : Exec ι ο Value) := by
  intro m
  have hfaults := eval_faults m.scopes e m.input
  simp only [evaluate, ExceptT.run_mk]
  rcases hrun : (eval m.scopes e).run m.input with ⟨f | v, rest⟩
  · rw [hrun] at hfaults
    exact RunError.inner_of_ofExpr hfaults none
  · trivial

theorem Exec.store_ends (x : String) (v : Value) :
    Ends (fun _ => True) RunError.Inner (store x v : Exec ι ο Unit) := by
  intro m
  simp only [store, ExceptT.run_mk]
  rcases hassign : m.scopes.assign x v with f | t
  · obtain ⟨w, -, -, rfl⟩ := Scopes.assign_eq_error_iff.mp hassign
    exact FaultCategory.noConfusion
  · trivial

theorem Exec.write_ends [LineSink ο] (line : String) :
    Ends (fun _ => True) RunError.Inner (write line : Exec ι ο Unit) := by
  intro m
  simp only [write, ExceptT.run_mk]
  rcases LineSink.write m.output line with ⟨_ | _, output⟩
  · exact FaultCategory.noConfusion
  · trivial

theorem Exec.flush_ends [LineSink ο] :
    Ends (fun _ => True) RunError.Inner (flush : Exec ι ο Unit) := by
  intro m
  simp only [flush, ExceptT.run_mk]
  rcases LineSink.flush m.output with ⟨_ | _, output⟩
  · exact FaultCategory.noConfusion
  · trivial

/-- An output that can be flushed brings up no error at the end. -/
theorem Exec.run_flush_ne_error [LineSink ο] (hflush : ∀ o : ο, (LineSink.flush o).1 = .ok ())
    {m m' : Machine ι ο} {e : RunError} : flush.run m ≠ (.error e, m') := by
  intro herror
  have hok := hflush m.output
  simp only [flush, ExceptT.run_mk] at herror
  rcases hend : LineSink.flush m.output with ⟨why | u, output⟩
  · rw [hend] at hok
    cases hok
  · rw [hend] at herror
    cases herror

/-- A block ends as its body does. -/
theorem Exec.inFrame_ends {P : α → Prop} {Q : RunError → Prop} {x : Exec ι ο α}
    (h : Ends P Q x) : Ends P Q (inFrame x) :=
  fun m => h { m with scopes := m.scopes.push }

/-- A loop takes the jumps of its rounds and hands on an `exit`. -/
theorem Exec.rounds_ends {body : Stmt} {round : Int64 → Exec ι ο Flow}
    (hround : ∀ i, Ends (fun flow => flow.BackedBy body) RunError.Inner (round i)) (i : Int64)
    (count : Nat) :
    Ends (fun flow => flow = .normal ∨ flow = .exit ∧ body.Exits) RunError.Inner
      (rounds round i count) := by
  induction count generalizing i with
  | zero => exact .pure (Or.inl rfl)
  | succ count ih =>
    refine (hround i).bind fun flow hflow => ?_
    match flow with
    | .normal | .jump .continue_ => exact ih (i + 1)
    | .jump .break_ => exact .pure (Or.inl rfl)
    | .exit => exact .pure (Or.inr ⟨rfl, hflow⟩)

/-- A choice ends as one of its branches does. -/
theorem Exec.choice_ends [LineSource ι] {P : Flow → Prop} (span : Span) (cond : Expr)
    {yes no : Exec ι ο Flow} (hyes : Ends P RunError.Inner yes) (hno : Ends P RunError.Inner no) :
    Ends P RunError.Inner (do
      let v ← located span (evaluate cond)
      if ← located span (require v.asBool) then yes else no) := by
  refine (located_ends (evaluate_ends cond) span).bind fun v _ => ?_
  refine (located_ends (require_ends v.asBool_meets fun f hf => ?_) span).bind fun b _ => ?_
  · rw [hf.2]
    exact FaultCategory.noConfusion
  · cases b
    · exact hno
    · exact hyes

variable [LineSource ι] [LineSink ο]

theorem Exec.assign_ends {P : Flow → Prop} (span : Span) (x : String) (e : Expr)
    (hP : P .normal) : Ends P RunError.Inner (exec (.assign span x e) : Exec ι ο Flow) := by
  rw [exec_assign]
  refine (located_ends (evaluate_ends e) span).bind fun v _ => ?_
  have hstorable : Ends (fun _ => True) RunError.Inner
      (require (if v.storable then .ok () else .error (.notStorable v.kind)) :
        Exec ι ο Unit) := by
    intro m
    cases v.storable
    · exact FaultCategory.noConfusion
    · trivial
  refine (located_ends hstorable span).bind fun _ _ => ?_
  exact (located_ends (store_ends x v) span).bind fun _ _ => .pure hP

/-- A loop ends normally or with an `exit` of its body, and never with a jump. -/
theorem Exec.loop_ends (span : Span) (x : String) (first last : Expr) {body : Stmt}
    (hbody : Ends (fun flow => flow.BackedBy body) RunError.Inner (exec body : Exec ι ο Flow)) :
    Ends (fun flow => flow = .normal ∨ flow = .exit ∧ body.Exits) RunError.Inner
      (exec (.forTo span x first last body) : Exec ι ο Flow) := by
  have hevaluate (e : Expr) :
      Ends (fun _ => True) RunError.Inner (located span (evaluate e) : Exec ι ο Value) :=
    located_ends (evaluate_ends e) span
  have hint (v : Value) :
      Ends (fun _ => True) RunError.Inner (located span (require v.asInt) : Exec ι ο Int64) := by
    have hrequire : Ends _ RunError.Inner (require v.asInt : Exec ι ο Int64) :=
      require_ends v.asInt_meets fun f hf => by
        rw [hf.2]
        exact FaultCategory.noConfusion
    exact (located_ends hrequire span).mono (fun _ _ => trivial) fun _ h => h
  rw [exec_forTo]
  refine (hevaluate first).bind fun a _ => (hevaluate last).bind fun b _ => ?_
  refine (hint a).bind fun a _ => (hint b).bind fun b _ => ?_
  refine rounds_ends (fun i => ?_) a (roundCount a b)
  exact (located_ends (store_ends x _) span).bind fun _ _ => hbody

/-! ## Statements -/

mutual

/-- **A statement ends as its text allows**, and reports no stray jump by itself. -/
theorem exec_ends : ∀ s : Stmt,
    Ends (fun flow => flow.BackedBy s) RunError.Inner (exec s : Exec ι ο Flow)
  | .assign span x e => Exec.assign_ends span x e trivial
  | .print span e => by
    rw [exec_print]
    refine (Exec.located_ends (Exec.evaluate_ends e) span).bind fun v _ => ?_
    exact (Exec.located_ends (Exec.write_ends v.text) span).bind fun _ _ => .pure trivial
  | .ifThen span cond yes => by
    rw [exec_ifThen]
    refine Exec.choice_ends span cond ((exec_ends yes).mono ?_ fun _ h => h) (.pure trivial)
    refine fun flow => Flow.BackedBy.mono (fun t ht => .only span cond ht) fun x hx => ?_
    simp [Stmt.nodes, hx]
  | .ifThenElse span cond yes no => by
    rw [exec_ifThenElse]
    refine Exec.choice_ends span cond ((exec_ends yes).mono ?_ fun _ h => h)
      ((exec_ends no).mono ?_ fun _ h => h)
    · refine fun flow => Flow.BackedBy.mono (fun t ht => .yes span cond no ht) fun x hx => ?_
      simp [Stmt.nodes, hx]
    · refine fun flow => Flow.BackedBy.mono (fun t ht => .no span cond yes ht) fun x hx => ?_
      simp [Stmt.nodes, hx]
  | .forTo span x first last body => by
    refine (Exec.loop_ends span x first last (exec_ends body)).mono ?_ fun _ h => h
    rintro flow (rfl | ⟨rfl, here, hexit⟩)
    · trivial
    · exact ⟨here, by simp [Stmt.nodes, hexit]⟩
  | .block span body => by
    rw [exec_block]
    refine (Exec.inFrame_ends (execAll_ends body)).mono ?_ fun _ h => h
    rintro flow (rfl | ⟨s, hs, hflow⟩)
    · trivial
    · refine hflow.mono (fun t ht => .block span hs ht) ?_
      rw [Stmt.nodes, Stmt.nodesAll_eq_flatMap]
      exact fun x hx => List.mem_cons_of_mem _ (List.mem_flatMap.mpr ⟨s, hs, hx⟩)
  | .break_ span => by
    rw [exec_break]
    exact .pure ⟨span, .self⟩
  | .continue_ span => by
    rw [exec_continue]
    exact .pure ⟨span, .self⟩
  | .exit_ span => by
    rw [exec_exit]
    exact .pure ⟨span, Stmt.mem_nodes _⟩

/-- Statements in sequence end as one of them does. -/
theorem execAll_ends : ∀ body : List Stmt,
    Ends (fun flow => flow = .normal ∨ ∃ s ∈ body, flow.BackedBy s) RunError.Inner
      (execAll body : Exec ι ο Flow)
  | [] => by
    rw [execAll_nil]
    exact .pure (Or.inl rfl)
  | s :: rest => by
    rw [execAll_cons]
    refine (exec_ends s).bind fun flow hflow => ?_
    match flow with
    | .normal =>
      refine (execAll_ends rest).mono (fun flow hrest => ?_) fun _ h => h
      exact hrest.imp_right fun ⟨t, ht, hflow⟩ => ⟨t, List.mem_cons_of_mem s ht, hflow⟩
    | .jump j => exact .pure (Or.inr ⟨s, List.mem_cons_self, hflow⟩)
    | .exit => exact .pure (Or.inr ⟨s, List.mem_cons_self, hflow⟩)

end

/-! ## Programs -/

/-- The statements before `s` go on normally, and `s` ends in a jump. -/
def StraysAt (body : List Stmt) (m : Machine ι ο) (s : Stmt) (j : LoopJump) : Prop :=
  ∃ before after m₁ m₂, body = before ++ s :: after ∧
    (execAll before).run m = (.ok .normal, m₁) ∧ (exec s).run m₁ = (.ok (.jump j), m₂)

theorem StraysAt.cons {s s' : Stmt} {body : List Stmt} {m m' : Machine ι ο} {j : LoopJump}
    (hrun : (exec s).run m = (.ok .normal, m')) (h : StraysAt body m' s' j) :
    StraysAt (s :: body) m s' j := by
  obtain ⟨before, after, m₁, m₂, rfl, hbefore, hs'⟩ := h
  refine ⟨s :: before, after, m₁, m₂, rfl, ?_, hs'⟩
  rw [execAll_cons, run_bind, hrun]
  exact hbefore

/-- **A stray jump is reported at a statement that ended in it.** -/
theorem runAll_strays {body : List Stmt} {m m' : Machine ι ο} {e : RunError}
    (hrun : (runAll body).run m = (.error e, m')) (he : e.fault.category = .strayControl) :
    ∃ s j, StraysAt body m s j ∧ e = ⟨.strayControl j, s.span⟩ := by
  induction body generalizing m with
  | nil => cases hrun
  | cons s rest ih =>
    rw [runAll, run_bind] at hrun
    rcases hs : (exec s).run m with ⟨e' | flow, m₁⟩
    · -- the statement failed by itself, and not for a stray jump
      rw [hs] at hrun
      cases hrun
      exact absurd he ((exec_ends s).of_error hs)
    · rw [hs] at hrun
      match flow with
      | .normal =>
        obtain ⟨s', j, hstrays, he⟩ := ih hrun
        exact ⟨s', j, hstrays.cons hs, he⟩
      | .exit => cases hrun
      | .jump j =>
        cases hrun
        exact ⟨s, j, ⟨[], rest, m, m', rfl, rfl, hs⟩, rfl⟩

/-- Flushing the output brings up no stray jump, so the statements of the program did. -/
theorem Program.run_strays {p : Program} {m m' : Machine ι ο} {e : RunError}
    (hrun : p.run.run m = (.error e, m')) (he : e.fault.category = .strayControl) :
    ∃ s j, StraysAt p.body m s j ∧ e = ⟨.strayControl j, s.span⟩ := by
  obtain ⟨m₁, hbody⟩ | ⟨m₁, hflush⟩ := error_of_followedBy hrun
  · exact runAll_strays hbody he
  · exact absurd he (Exec.flush_ends.of_error hflush)

theorem StraysAt.jumps {body : List Stmt} {m : Machine ι ο} {s : Stmt} {j : LoopJump}
    (h : StraysAt body m s j) : s ∈ body ∧ s.Jumps j := by
  obtain ⟨before, after, m₁, m₂, rfl, -, hs⟩ := h
  exact ⟨List.mem_append_right _ List.mem_cons_self, (exec_ends s).of_ok hs⟩

/-- **Jumps are bounded by the text.** A statement ends in a `break` or `continue` only if it
holds one that is in none of its loops, and it ends the program only if it holds an `exit`. So a
loop ends in no jump, and a program whose jumps are all in loops has no stray one, whatever its
state and input are. A stray jump that is reported stands in no loop of the statement of the
program that ended in it, and it is reported at the place of this statement. -/
theorem exec_jumps_bounded (m m' : Machine ι ο) :
    (∀ s : Stmt,
      (∀ j, (exec s).run m = (.ok (.jump j), m') → s.Jumps j) ∧
      ((exec s).run m = (.ok .exit, m') → s.Exits)) ∧
    (∀ span x first last body j,
      (exec (.forTo span x first last body)).run m ≠ (.ok (.jump j), m')) ∧
    (∀ p : Program, (∀ s ∈ p.body, ∀ j, ¬ s.Jumps j) →
      ∀ e, p.run.run m = (.error e, m') → e.fault.category ≠ .strayControl) ∧
    ∀ (p : Program) e, p.run.run m = (.error e, m') → e.fault.category = .strayControl →
      ∃ s ∈ p.body, ∃ j, StraysAt p.body m s j ∧ s.Jumps j ∧ e.span = some s.span ∧
        e.fault = .strayControl j ∧ e.fault.message = j.text ++ " outside of a for loop" := by
  refine ⟨fun s => ⟨fun j hrun => ?_, fun hrun => ?_⟩, fun span x first last body j hrun => ?_,
    fun p hp e hrun he => ?_, fun p e hrun he => ?_⟩
  · exact (exec_ends s).of_ok hrun
  · exact (exec_ends s).of_ok hrun
  · exact Stmt.not_jumps_forTo j span x first last body ((exec_ends _).of_ok hrun)
  · obtain ⟨s, j, hstrays, -⟩ := Program.run_strays hrun he
    exact hp s hstrays.jumps.1 j hstrays.jumps.2
  · obtain ⟨s, j, hstrays, rfl⟩ := Program.run_strays hrun he
    exact ⟨s, hstrays.jumps.1, j, hstrays, hstrays.jumps.2, rfl, rfl, rfl⟩

end

/-- In `begin if true then break end` the `break` is a stray one, and it is none in a loop around
the block. -/
theorem exec_jumps_bounded_block :
    ∃ (m : Machine (List String) LineBuffer) (block : Stmt) (stray looped : Program),
      m = .start [] .empty ∧
      block = .block ⟨0, 28⟩ [.ifThen ⟨6, 24⟩ (.bool ⟨9, 13⟩ true) (.break_ ⟨19, 24⟩)] ∧
      stray = ⟨[block]⟩ ∧
      looped = ⟨[.forTo ⟨0, 28⟩ "i" (.int ⟨0, 1⟩ 1) (.int ⟨0, 1⟩ 2) block,
        .assign ⟨30, 39⟩ "x" (.bool ⟨35, 39⟩ true)]⟩ ∧
      (exec block).run m = (.ok (.jump .break_), m) ∧ block.Jumps .break_ ∧
      (∃ m' e, stray.run.run m = (.error e, m') ∧ e.fault.category = .strayControl ∧
        ∃ s ∈ stray.body, ∃ j, StraysAt stray.body m s j ∧ s.Jumps j ∧ e.span = some s.span ∧
          e.fault = .strayControl j ∧ e.fault.message = j.text ++ " outside of a for loop") ∧
      (∀ s ∈ looped.body, ∀ j, ¬ s.Jumps j) ∧
      ∃ m' e, looped.run.run m = (.error e, m') ∧ e.fault.category ≠ .strayControl := by
  let m : Machine (List String) LineBuffer := .start [] .empty
  let block : Stmt := .block ⟨0, 28⟩ [.ifThen ⟨6, 24⟩ (.bool ⟨9, 13⟩ true) (.break_ ⟨19, 24⟩)]
  let stray : Program := ⟨[block]⟩
  let looped : Program := ⟨[.forTo ⟨0, 28⟩ "i" (.int ⟨0, 1⟩ 1) (.int ⟨0, 1⟩ 2) block,
    .assign ⟨30, 39⟩ "x" (.bool ⟨35, 39⟩ true)]⟩
  have hblock : (exec block).run m = (.ok (.jump .break_), m) := by
    with_unfolding_all rfl
  have hstray : stray.run.run m =
      (.error ⟨.strayControl .break_, some ⟨0, 28⟩⟩, (stray.run.run m).2) := by
    with_unfolding_all rfl
  have hlooped : looped.run.run m =
      (.error ⟨.notStorable .bool, some ⟨30, 39⟩⟩, (looped.run.run m).2) := by
    with_unfolding_all rfl
  have hbounded : ∀ s ∈ looped.body, ∀ j, ¬ s.Jumps j := by
    rintro s hs j ⟨span, hloose⟩
    obtain rfl | hs := List.mem_cons.mp hs
    · cases j <;> cases hloose
    · obtain rfl := List.mem_singleton.mp hs
      cases j <;> cases hloose
  exact ⟨m, block, stray, looped, rfl, rfl, rfl, rfl, hblock,
    ((exec_jumps_bounded m m).1 block).1 .break_ hblock,
    ⟨_, _, hstray, rfl, (exec_jumps_bounded m _).2.2.2 stray _ hstray rfl⟩, hbounded,
    ⟨_, _, hlooped, (exec_jumps_bounded m _).2.2.1 looped hbounded _ hlooped⟩⟩

end Scriptling

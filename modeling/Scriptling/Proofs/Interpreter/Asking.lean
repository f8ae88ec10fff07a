import Scriptling.Diagnostic
import Scriptling.Proofs.Interpreter.Channels

/-!
# What a run asks for

A run asks for lines of input one at a time, and each time it gets the next line or is told that
there is none. How often it asks can be counted by an input that counts (`Tally`).

What a run does depends on the lines that it asks for and on no others: with any input that begins
with the same lines, as far as the run asks, it does the same and asks as often
(`Program.run_asks`). So the lines that a run takes can be given to it without those behind them,
or with others. Where it asks in vain, the input has to end there too.
-/

namespace Scriptling

/-- Lines given beforehand, and how often a line was asked for. -/
structure Tally where
  /-- the lines still to be read -/
  rest : List String
  /-- how often one was asked for, and given or not -/
  asked : Nat
deriving DecidableEq

namespace Tally

instance : LineSource Tally where
  next t := ((LineSource.next t.rest).1, ⟨(LineSource.next t.rest).2, t.asked + 1⟩)

/-- After `n` questions more. -/
def skip (t : Tally) (n : Nat) : Tally :=
  ⟨t.rest.drop n, t.asked + n⟩

@[simp] theorem skip_skip (t : Tally) (n k : Nat) : (t.skip n).skip k = t.skip (n + k) := by
  simp [skip, Nat.add_assoc]

/-- Inputs that begin with the same `n + k` lines begin with the same `n`, and then `k`, lines. -/
theorem take_of_take_add {t u : Tally} {n k : Nat}
    (h : t.rest.take (n + k) = u.rest.take (n + k)) :
    t.rest.take n = u.rest.take n ∧ (t.skip n).rest.take k = (u.skip n).rest.take k := by
  constructor
  · have htake := congrArg (List.take n) h
    rwa [List.take_take, List.take_take, Nat.min_eq_left (Nat.le_add_right n k)] at htake
  · have hdrop := congrArg (List.drop n) h
    rwa [List.drop_take, List.drop_take, Nat.add_sub_cancel_left] at hdrop

theorem next_snd (t : Tally) : (LineSource.next t).2 = t.skip 1 := by
  obtain ⟨_ | ⟨line, rest⟩, asked⟩ := t <;> rfl

/-- The answer depends on the first line, or on there being none. -/
theorem next_fst_eq {t u : Tally} (h : t.rest.take 1 = u.rest.take 1) :
    (LineSource.next t).1 = (LineSource.next u).1 := by
  obtain ⟨_ | ⟨line, rest⟩, asked⟩ := t <;> obtain ⟨_ | ⟨line', rest'⟩, asked'⟩ := u
  · rfl
  · cases h
  · cases h
  · obtain ⟨rfl, -⟩ := List.cons_eq_cons.mp h
    rfl

end Tally

/-! ## Computations that ask -/

section

variable {ε σ α β : Type} {input : σ → Tally} {feed : σ → Tally → σ}

/-- The computation asks for some number of lines. From an input that begins with the same lines,
as far as that number, it does the same. The input is a part of the state, and `feed` replaces
it. -/
def Asks (input : σ → Tally) (feed : σ → Tally → σ) (x : ExceptT ε (StateM σ) α) : Prop :=
  ∀ s, ∃ n, input (x.run s).2 = (input s).skip n ∧
    ∀ t : Tally, t.rest.take n = (input s).rest.take n →
      x.run (feed s t) = ((x.run s).1, feed (x.run s).2 (t.skip n))

namespace Asks

/-- A computation that does not ask. -/
theorem of_ignores {x : ExceptT ε (StateM σ) α} (hinput : ∀ s, input (x.run s).2 = input s)
    (hfeed : ∀ s t, x.run (feed s t) = ((x.run s).1, feed (x.run s).2 t)) : Asks input feed x :=
  fun s => ⟨0, hinput s, fun t _ => hfeed s t⟩

/-- A result that does not touch the state. -/
theorem lift (r : Except ε α) : Asks input feed (liftM r : ExceptT ε (StateM σ) α) :=
  of_ignores (fun _ => rfl) fun _ _ => rfl

theorem pure (a : α) : Asks input feed (pure a : ExceptT ε (StateM σ) α) :=
  lift (.ok a)

/-- **Questions add up.** One step and what follows it. -/
theorem bind {x : ExceptT ε (StateM σ) α} {f : α → ExceptT ε (StateM σ) β}
    (hx : Asks input feed x) (hf : ∀ a, Asks input feed (f a)) : Asks input feed (x >>= f) := by
  intro s
  obtain ⟨n, hinput, hsame⟩ := hx s
  rcases hrun : x.run s with ⟨e | a, s'⟩
  · rw [hrun] at hinput hsame
    refine ⟨n, by rw [run_bind, hrun]; exact hinput, fun t ht => ?_⟩
    rw [run_bind, run_bind, hrun, hsame t ht]
  · rw [hrun] at hinput hsame
    obtain ⟨k, hinput', hsame'⟩ := hf a s'
    refine ⟨n + k, ?_, fun t ht => ?_⟩
    · rw [run_bind, hrun]
      rw [hinput, Tally.skip_skip] at hinput'
      exact hinput'
    · obtain ⟨hfirst, hsecond⟩ := Tally.take_of_take_add ht
      rw [← hinput] at hsecond
      rw [run_bind, run_bind, hrun, hsame t hfirst]
      simp only [hsame' _ hsecond, Tally.skip_skip]

/-- Two steps, of which the second is taken in any case. -/
theorem followedBy {x : ExceptT ε (StateM σ) α} {y : ExceptT ε (StateM σ) Unit}
    (hx : Asks input feed x) (hy : Asks input feed y) : Asks input feed (followedBy x y) := by
  intro s
  obtain ⟨n, hinput, hsame⟩ := hx s
  obtain ⟨k, hinput', hsame'⟩ := hy (x.run s).2
  refine ⟨n + k, ?_, fun t ht => ?_⟩
  · rw [hinput, Tally.skip_skip] at hinput'
    exact hinput'
  · obtain ⟨hfirst, hsecond⟩ := Tally.take_of_take_add ht
    rw [← hinput] at hsecond
    simp only [Scriptling.followedBy, ExceptT.run_mk, hsame t hfirst, hsame' _ hsecond,
      Tally.skip_skip]
    rfl

end Asks

end

/-- What reading a line comes to is a matter of the answer. -/
theorem readLine_run {ι : Type} [LineSource ι] (i : ι) :
    (readLine : Eval ι String).run i =
      (match (LineSource.next i).1 with
        | .line text => .ok text
        | .failed why => .error (.unreadable why)
        | .finished => .error .endOfInput,
      (LineSource.next i).2) := by
  simp only [readLine, ExceptT.run_mk]
  rcases LineSource.next i with ⟨_ | _ | _, _⟩ <;> rfl

/-- The count makes no difference to what is read. -/
theorem readLine_tally (t : Tally) :
    (readLine : Eval Tally String).run t =
      (((readLine : Eval (List String) String).run t.rest).1,
        ⟨((readLine : Eval (List String) String).run t.rest).2, t.asked + 1⟩) := by
  rw [readLine_run, readLine_run]
  rfl

/-- Reading a line is one question. -/
theorem readLine_asks : Asks id (fun _ t => t) (readLine : Eval Tally String) := by
  intro s
  refine ⟨1, by rw [readLine_run]; exact s.next_snd, fun t ht => ?_⟩
  rw [readLine_run, readLine_run, Tally.next_fst_eq ht, Tally.next_snd]
  rfl

/-- What holds of reading a line and is carried on by sequences holds of every expression. -/
theorem eval_of_readLine {ι : Type} [LineSource ι] {P : ∀ {α : Type}, Eval ι α → Prop}
    (lift : ∀ {α : Type} (r : Except Fault α), P (liftM r : Eval ι α))
    (bind : ∀ {α β : Type} {x : Eval ι α} {f : α → Eval ι β}, P x → (∀ a, P (f a)) → P (x >>= f))
    (line : P (readLine : Eval ι String)) (scopes : Scopes) (e : Expr) :
    P (eval scopes e : Eval ι Value) := by
  have pure {α : Type} (a : α) : P (pure a : Eval ι α) := lift (.ok a)
  induction e with
  | int | str | bool => exact pure _
  | var _ x => exact lift (scopes.lookup x)
  | arith _ l op r ihl ihr | compare _ l op r ihl ihr =>
    rw [eval]
    exact bind ihl fun a => bind ihr fun b => lift (op.onValues a b)
  | logic _ l op r ihl ihr =>
    rw [eval]
    refine bind ihl fun v => bind (lift v.asBool) fun a => ?_
    rcases op.decided? a with _ | b
    · exact bind ihr fun w => bind (lift w.asBool) fun b => pure _
    · exact pure _
  | unary _ op e ih =>
    rw [eval]
    exact bind ih fun a => lift (op.onValue a)
  | length _ t ih =>
    rw [eval]
    exact bind ih fun a => bind (lift a.asStr) fun s => pure _
  | position _ l r ihl ihr | concatenate _ l r ihl ihr =>
    rw [eval]
    refine bind ihl fun a => bind ihr fun b => ?_
    exact bind (lift a.asStr) fun s => bind (lift b.asStr) fun t => pure _
  | substring _ t b n iht ihb ihn =>
    rw [eval]
    refine bind iht fun a => bind ihb fun b => bind ihn fun c => ?_
    refine bind (lift a.asStr) fun s => bind (lift b.asInt) fun i => ?_
    exact bind (lift c.asInt) fun n => pure _
  | readInt _ =>
    rw [eval]
    exact bind line fun line => lift (integerOfLine line)
  | readStr _ =>
    rw [eval]
    exact bind line fun line => pure _

theorem eval_asks (scopes : Scopes) (e : Expr) :
    Asks id (fun _ t => t) (eval scopes e : Eval Tally Value) :=
  eval_of_readLine (P := fun x => Asks id (fun _ t => t) x) .lift .bind readLine_asks scopes e

/-! ## Programs that ask -/

section

variable {ο α : Type}

/-- The computation asks for lines of the input of its machine. -/
abbrev Exec.Asking (x : Exec Tally ο α) : Prop :=
  Asks Machine.input (fun m input => { m with input }) x

namespace Exec.Asking

theorem require (r : Except Fault α) : Asking (require r : Exec Tally ο α) := by
  refine .of_ignores (fun m => ?_) fun m t => ?_
  all_goals cases r <;> rfl

theorem evaluate (e : Expr) : Asking (evaluate e : Exec Tally ο Value) := by
  intro m
  obtain ⟨n, hinput, hsame⟩ := eval_asks m.scopes e m.input
  refine ⟨n, ?_, fun t ht => ?_⟩
  · simp only [Exec.evaluate, ExceptT.run_mk]
    rcases hrun : (eval m.scopes e).run m.input with ⟨f | v, rest⟩ <;> rw [hrun] at hinput
    all_goals exact hinput
  · have heval := hsame t ht
    simp only [Exec.evaluate, ExceptT.run_mk, heval]
    rcases (eval m.scopes e).run m.input with ⟨f | v, rest⟩ <;> rfl

theorem store (x : String) (v : Value) : Asking (store x v : Exec Tally ο Unit) := by
  refine .of_ignores (fun m => ?_) fun m t => ?_
  all_goals
    simp only [Exec.store, ExceptT.run_mk]
    rcases m.scopes.assign x v with f | scopes <;> rfl

variable [LineSink ο]

theorem write (line : String) : Asking (write line : Exec Tally ο Unit) := by
  refine .of_ignores (fun m => ?_) fun m t => ?_
  all_goals
    simp only [Exec.write, ExceptT.run_mk]
    rcases LineSink.write m.output line with ⟨why | u, output⟩ <;> rfl

theorem flush : Asking (flush : Exec Tally ο Unit) := by
  refine .of_ignores (fun m => ?_) fun m t => ?_
  all_goals
    simp only [Exec.flush, ExceptT.run_mk]
    rcases LineSink.flush m.output with ⟨why | u, output⟩ <;> rfl

omit [LineSink ο] in
/-- Where errors are placed has nothing to do with the input. -/
theorem located {x : Exec Tally ο α} (h : Asking x) (span : Span) : Asking (located span x) := by
  intro m
  obtain ⟨n, hinput, hsame⟩ := h m
  refine ⟨n, hinput, fun t ht => ?_⟩
  rw [run_located, run_located, hsame t ht]
  rcases x.run m with ⟨_ | _, _⟩ <;> rfl

omit [LineSink ο] in
theorem inFrame {x : Exec Tally ο α} (h : Asking x) : Asking (inFrame x) := by
  intro m
  obtain ⟨n, hinput, hsame⟩ := h { m with scopes := m.scopes.push }
  refine ⟨n, hinput, fun t ht => ?_⟩
  simp only [Exec.inFrame, ExceptT.run_mk, hsame t ht]
  rfl

/-- Asking, as a comparison of a run with itself. -/
theorem comparison : Exec.Comparison id (fun _ => True)
    (fun (x : Exec Tally ο _) (_ : Exec Tally ο _) => Asking x) where
  pure := .pure
  bind := .bind
  require := require
  evaluate e _ := evaluate e
  store v _ := store _ v
  write := write
  located span _ _ h := located h span
  inFrame := inFrame
  flushed h := h.followedBy flush

end Exec.Asking

variable [LineSink ο]

/-- **A run depends on what it asks for.** -/
theorem Program.run_asks (p : Program) : Exec.Asking (p.run : Exec Tally ο Outcome) :=
  Exec.Asking.comparison.run (p := p) fun _ _ => trivial

/-- The source, run on a machine with some input, asks for a number of lines; and it does the same
with any input that begins with these lines. -/
theorem Machine.runSource_asks (m : Machine Tally ο) (source : String) :
    ∃ n, (m.runSource source).2.input = m.input.skip n ∧
      ∀ t : Tally, t.rest.take n = m.input.rest.take n →
        { m with input := t }.runSource source =
          ((m.runSource source).1, { (m.runSource source).2 with input := t.skip n }) := by
  simp only [runSource]
  rcases Program.ofSource source with d | p
  · exact ⟨0, rfl, fun t _ => rfl⟩
  · obtain ⟨n, hinput, hsame⟩ := p.run_asks m
    refine ⟨n, hinput, fun t ht => ?_⟩
    simp only [runProgram, hsame t ht]
    rfl

end

end Scriptling

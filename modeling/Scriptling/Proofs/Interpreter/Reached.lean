import Scriptling.Proofs.Interpreter.Jumps
import Scriptling.Proofs.Interpreter.Loops

/-!
# What is executed in a run

A statement does some work by itself and leaves the rest to the statements in it. Its own work is
to evaluate its expressions, to check their kinds, to store its variable and to write its line.
What it does as a whole is said by one equation for each kind of statement, in terms of its own work
and of the statements in it (`run_exec_forTo` and the like).

Which statements come to be executed, and on which machines, is a matter of the values of conditions
and bounds and of how the statements before have ended (`Stmt.ReachedIn`). Of the statements that
are reached, it can be said what goes wrong in their own work (`Raises`). Neither speaks of the
places of errors.
-/

namespace Scriptling

open LoopState (next)

/-! ## What statements do -/

section

variable {ι : Type} [LineSource ι]

/-- The value that an assignment stores. -/
def Eval.toStore (scopes : Scopes) (e : Expr) : Eval ι Value := do
  let v ← eval scopes e
  if v.storable then return v else throw (.notStorable v.kind)

/-- The answer to the condition of a choice. -/
def Eval.condition (scopes : Scopes) (cond : Expr) : Eval ι Bool := do
  let v ← eval scopes cond
  v.asBool

/-- The first and the last integer of a loop. -/
def Eval.bounds (scopes : Scopes) (first last : Expr) : Eval ι (Int64 × Int64) := do
  let a ← eval scopes first
  let b ← eval scopes last
  let a ← a.asInt
  let b ← b.asInt
  return (a, b)

end

/-! What a statement does, in terms of its own work and of the statements in it. -/

section

variable {ι ο : Type} [LineSource ι] (m : Machine ι ο) (span : Span)

/-- A choice asks for its condition and goes on as the answer says. -/
theorem run_choice (cond : Expr) (yes no : Exec ι ο Flow) :
    (do
      let v ← Exec.located span (Exec.evaluate cond)
      if ← Exec.located span (Exec.require v.asBool) then yes else no : Exec ι ο Flow).run m =
      match (Eval.condition m.scopes cond).run m.input with
      | (.error f, input) => (.error ⟨f, span⟩, { m with input })
      | (.ok b, input) => (if b then yes else no).run { m with input } := by
  rw [run_bind, Eval.condition, run_bind]
  simp only [Exec.run_located_evaluate]
  rcases (eval m.scopes cond).run m.input with ⟨f | v, input⟩
  · rfl
  · cases v <;> rfl

variable [LineSink ο]

theorem run_exec_assign (x : String) (e : Expr) :
    (exec (.assign span x e)).run m =
      match (Eval.toStore m.scopes e).run m.input with
      | (.error f, input) => (.error ⟨f, span⟩, { m with input })
      | (.ok v, input) =>
        match m.scopes.assign x v with
        | .error f => (.error ⟨f, span⟩, { m with input })
        | .ok scopes => (.ok .normal, { m with scopes, input }) := by
  rw [exec_assign, run_bind, Eval.toStore, run_bind]
  simp only [Exec.run_located_evaluate]
  rcases (eval m.scopes e).run m.input with ⟨f | v, input⟩
  · rfl
  · simp only [run_bind, Exec.run_located_require, Exec.run_located_store]
    cases v.storable
    · rfl
    · have hvalue : (pure v : Eval ι Value).run input = (.ok v, input) := rfl
      simp only [if_true, hvalue]
      rcases m.scopes.assign x v with f | scopes <;> rfl

theorem run_exec_print (e : Expr) :
    (exec (.print span e)).run m =
      match (eval m.scopes e).run m.input with
      | (.error f, input) => (.error ⟨f, span⟩, { m with input })
      | (.ok v, input) =>
        match LineSink.write m.output v.text with
        | (.error why, output) => (.error ⟨.unwritable why, span⟩, { m with input, output })
        | (.ok _, output) => (.ok .normal, { m with input, output }) := by
  rw [exec_print, run_bind]
  simp only [Exec.run_located_evaluate]
  rcases (eval m.scopes e).run m.input with ⟨f | v, input⟩
  · rfl
  · simp only [run_bind, Exec.run_located_write]
    rcases LineSink.write m.output v.text with ⟨why | _, output⟩ <;> rfl

theorem run_exec_forTo (x : String) (first last : Expr) (body : Stmt) :
    (exec (.forTo span x first last body)).run m =
      match (Eval.bounds m.scopes first last).run m.input with
      | (.error f, input) => (.error ⟨f, span⟩, { m with input })
      | (.ok (a, b), input) =>
        ((Int.range a.toInt (b.toInt + 1)).foldl (next span x body)
          (.going { m with input })).result := by
  have hrounds (a b : Int64) (input : ι) := by
    have h := Exec.run_rounds span x body a.toInt (Exec.roundCount a b) { m with input }
    rwa [Int64.ofInt_toInt, Exec.range_roundCount] at h
  rw [exec_forTo, run_bind, Eval.bounds, run_bind]
  simp only [Exec.run_located_evaluate]
  rcases (eval m.scopes first).run m.input with ⟨f | v, input₁⟩
  · rfl
  · simp only [run_bind, Exec.run_located_evaluate]
    rcases (eval m.scopes last).run input₁ with ⟨f | w, input₂⟩
    · rfl
    · -- both bounds are evaluated before the kind of either is looked at
      cases v with
      | int a =>
        cases w with
        | int b => exact hrounds a b input₂
        | str | bool => rfl
      | str | bool => rfl

theorem run_exec_block (body : List Stmt) :
    (exec (.block span body)).run m =
      match (execAll body).run { m with scopes := m.scopes.push } with
      | (r, m') => (r, { m' with scopes := m'.scopes.pop }) := by
  rw [exec_block]
  rfl

end

/-! ## What is reached, and what fails there -/

section

variable {ι ο : Type} [LineSource ι] [LineSink ο]

/-- The statement is the next one to be executed, on `m'`: those before it in the list have ended
normally, from `m` on. -/
inductive NextIn (t : Stmt) (m' : Machine ι ο) : List Stmt → Machine ι ο → Prop
  /-- it is the first one -/
  | first (rest : List Stmt) : NextIn t m' (t :: rest) m'
  /-- another one was executed before -/
  | later {s : Stmt} {rest : List Stmt} {m m₁ : Machine ι ο} :
      (exec s).run m = (.ok .normal, m₁) → NextIn t m' rest m₁ → NextIn t m' (s :: rest) m

/-- The loop over these integers comes to the round for `i`, on `m'`. -/
inductive RoundIn (span : Span) (x : String) (body : Stmt) (i : Int) (m' : Machine ι ο) :
    List Int → Machine ι ο → Prop
  /-- it is the first round -/
  | first (rest : List Int) : RoundIn span x body i m' (i :: rest) m'
  /-- there was another round before -/
  | later {j : Int} {rest : List Int} {m m₁ : Machine ι ο} :
      next span x body (.going m) j = .going m₁ → RoundIn span x body i m' rest m₁ →
      RoundIn span x body i m' (j :: rest) m

/-- As a part of executing the statement on `m`, the statement `t` is executed on `m'`. -/
inductive Enters (t : Stmt) (m' : Machine ι ο) : Stmt → Machine ι ο → Prop
  /-- the only branch of a choice -/
  | only {m : Machine ι ο} {span : Span} {cond : Expr} {input : ι} :
      (Eval.condition m.scopes cond).run m.input = (.ok true, input) → m' = { m with input } →
      Enters t m' (.ifThen span cond t) m
  /-- the first branch of a choice -/
  | yes {m : Machine ι ο} {span : Span} {cond : Expr} {no : Stmt} {input : ι} :
      (Eval.condition m.scopes cond).run m.input = (.ok true, input) → m' = { m with input } →
      Enters t m' (.ifThenElse span cond t no) m
  /-- the second branch of a choice -/
  | no {m : Machine ι ο} {span : Span} {cond : Expr} {yes : Stmt} {input : ι} :
      (Eval.condition m.scopes cond).run m.input = (.ok false, input) → m' = { m with input } →
      Enters t m' (.ifThenElse span cond yes t) m
  /-- the body of a loop, in a round -/
  | round {m m₁ : Machine ι ο} {span : Span} {x : String} {first last : Expr} {a b : Int64}
      {input : ι} {i : Int} {scopes : Scopes} :
      (Eval.bounds m.scopes first last).run m.input = (.ok (a, b), input) →
      RoundIn span x t i m₁ (Int.range a.toInt (b.toInt + 1)) { m with input } →
      m₁.scopes.assign x (.int (.ofInt i)) = .ok scopes → m' = { m₁ with scopes } →
      Enters t m' (.forTo span x first last t) m
  /-- a statement of a block -/
  | block {m : Machine ι ο} {span : Span} {body : List Stmt} :
      NextIn t m' body { m with scopes := m.scopes.push } → Enters t m' (.block span body) m

/-- To execute a statement on `m` is to come to execute `t` on `m'`, at any depth. -/
inductive Stmt.ReachedIn (t : Stmt) (m' : Machine ι ο) : Stmt → Machine ι ο → Prop
  /-- it is the statement -/
  | self : ReachedIn t m' t m'
  /-- it is reached in a part of the statement -/
  | part {s u : Stmt} {m m₁ : Machine ι ο} :
      Enters u m₁ s m → ReachedIn t m' u m₁ → ReachedIn t m' s m

/-- On `m`, the statement's own work brings up the fault. What the statements in it do is no work
of its own. -/
inductive Raises (m : Machine ι ο) : Stmt → Fault → Prop
  /-- the value of an assignment cannot be had, or not be stored -/
  | value {span : Span} {x : String} {e : Expr} {f : Fault} {input : ι} :
      (Eval.toStore m.scopes e).run m.input = (.error f, input) → Raises m (.assign span x e) f
  /-- the variable of an assignment does not take the value -/
  | store {span : Span} {x : String} {e : Expr} {f : Fault} {v : Value} {input : ι} :
      (Eval.toStore m.scopes e).run m.input = (.ok v, input) → m.scopes.assign x v = .error f →
      Raises m (.assign span x e) f
  /-- the value to be printed cannot be had -/
  | shown {span : Span} {e : Expr} {f : Fault} {input : ι} :
      (eval m.scopes e).run m.input = (.error f, input) → Raises m (.print span e) f
  /-- the line cannot be written -/
  | write {span : Span} {e : Expr} {v : Value} {input : ι} {why : WriteError} {output : ο} :
      (eval m.scopes e).run m.input = (.ok v, input) →
      LineSink.write m.output v.text = (.error why, output) →
      Raises m (.print span e) (.unwritable why)
  /-- the condition of a choice without alternative has no answer -/
  | only {span : Span} {cond : Expr} {yes : Stmt} {f : Fault} {input : ι} :
      (Eval.condition m.scopes cond).run m.input = (.error f, input) →
      Raises m (.ifThen span cond yes) f
  /-- the condition of a choice has no answer -/
  | choice {span : Span} {cond : Expr} {yes no : Stmt} {f : Fault} {input : ι} :
      (Eval.condition m.scopes cond).run m.input = (.error f, input) →
      Raises m (.ifThenElse span cond yes no) f
  /-- the bounds of a loop are no integers -/
  | bounds {span : Span} {x : String} {first last : Expr} {body : Stmt} {f : Fault} {input : ι} :
      (Eval.bounds m.scopes first last).run m.input = (.error f, input) →
      Raises m (.forTo span x first last body) f
  /-- the variable of a loop does not take the integer of a round -/
  | bind {m₁ : Machine ι ο} {span : Span} {x : String} {first last : Expr} {body : Stmt}
      {a b : Int64} {input : ι} {i : Int} {f : Fault} :
      (Eval.bounds m.scopes first last).run m.input = (.ok (a, b), input) →
      RoundIn span x body i m₁ (Int.range a.toInt (b.toInt + 1)) { m with input } →
      m₁.scopes.assign x (.int (.ofInt i)) = .error f →
      Raises m (.forTo span x first last body) f

/-- The statements that do work by themselves. -/
def Stmt.works : Stmt → Bool
  | assign .. | print .. | ifThen .. | ifThenElse .. | forTo .. => true
  | block .. | break_ _ | continue_ _ | exit_ _ => false

variable {s t u : Stmt} {m m' m₁ m₂ : Machine ι ο} {f f' : Fault}

theorem Raises.works (h : Raises m t f) : t.works = true := by
  cases h <;> rfl

theorem NextIn.mem {body : List Stmt} (h : NextIn t m' body m) : t ∈ body := by
  induction h with
  | first => exact List.mem_cons_self
  | later _ _ ih => exact List.mem_cons_of_mem _ ih

theorem Enters.nodes_subset (h : Enters t m' s m) : t.nodes ⊆ s.nodes := by
  intro x hx
  cases h with
  | only | yes | no | round => simp [Stmt.nodes, hx]
  | block hnext =>
    rw [Stmt.nodes, Stmt.nodesAll_eq_flatMap]
    exact List.mem_cons_of_mem _ (List.mem_flatMap.mpr ⟨t, hnext.mem, hx⟩)

theorem Stmt.ReachedIn.mem_nodes (h : t.ReachedIn m' s m) : .stmt t ∈ s.nodes := by
  induction h with
  | self => exact t.mem_nodes
  | part henters _ ih => exact henters.nodes_subset ih

end

end Scriptling

import Scriptling.Proofs.Interpreter.Located

/-!
# What execution does to the machine

Executing a statement is made of few actions: evaluating an expression, storing a variable,
writing a line, and running statements in a frame of their own; a program also flushes the
output. A relation between the machine before and the machine after that holds of each of
these actions, and of sequences of them, holds of every statement and every program,
whatever way the execution ends (`Exec.Law`).

The relation may depend on the names that are stored in the frame at hand. These are known
from the text of a statement (`Stmt.writes`); what a block stores does not count, because
it goes to the frame of the block. All names in the text, read or stored, in blocks or not, are
`Stmt.names`.
-/

namespace Scriptling

/-- The names that a statement may bind in the frame it is executed in. -/
def Stmt.writes : Stmt → List String
  | assign _ x _ => [x]
  | ifThen _ _ yes => yes.writes
  | ifThenElse _ _ yes no => yes.writes ++ no.writes
  | forTo _ x _ _ body => x :: body.writes
  | print _ _ | block _ _ | break_ _ | continue_ _ | exit_ _ => []

/-- The names that occur in an expression. -/
def Expr.names : Expr → List String
  | var _ x => [x]
  | int .. | str .. | bool .. | readInt _ | readStr _ => []
  | unary _ _ a | length _ a => a.names
  | arith _ a _ b | compare _ a _ b | logic _ a _ b | position _ a b | concatenate _ a b =>
    a.names ++ b.names
  | substring _ a b c => a.names ++ b.names ++ c.names

mutual

/-- The names that occur in a statement, at any depth: as variables, as targets of assignments
and as variables of loops. -/
def Stmt.names : Stmt → List String
  | .assign _ x e => x :: e.names
  | .print _ e => e.names
  | .ifThen _ c yes => c.names ++ yes.names
  | .ifThenElse _ c yes no => c.names ++ yes.names ++ no.names
  | .forTo _ x a b body => x :: (a.names ++ b.names ++ body.names)
  | .block _ body => Stmt.namesAll body
  | .break_ _ | .continue_ _ | .exit_ _ => []

/-- The names that occur in statements. -/
def Stmt.namesAll : List Stmt → List String
  | [] => []
  | s :: rest => s.names ++ Stmt.namesAll rest

end

/-- The names that occur in a program. -/
def Program.names (p : Program) : List String :=
  Stmt.namesAll p.body

theorem Stmt.writes_subset_names (s : Stmt) : s.writes ⊆ s.names := by
  induction s using Stmt.writes.induct with
  | case1 span x e => exact List.cons_subset_cons x (List.nil_subset _)
  | case2 span cond yes ih => exact List.subset_append_of_subset_right _ ih
  | case3 span cond yes no ihyes ihno =>
    apply List.append_subset.mpr
    exact ⟨List.subset_append_of_subset_left _ (List.subset_append_of_subset_right _ ihyes),
      List.subset_append_of_subset_right _ ihno⟩
  | case4 span x first last body ih =>
    exact List.cons_subset_cons x (List.subset_append_of_subset_right _ ih)
  | _ => exact List.nil_subset _

/-- What a program writes occurs in it. -/
theorem Program.writes_subset_names (p : Program) : p.body.flatMap Stmt.writes ⊆ p.names := by
  obtain ⟨body⟩ := p
  induction body with
  | nil => exact List.Subset.refl _
  | cons s rest ih =>
    apply List.append_subset.mpr
    exact ⟨List.subset_append_of_subset_left _ s.writes_subset_names,
      List.subset_append_of_subset_right _ ih⟩

namespace Exec

variable {ι ο α β : Type}

/-! ## Relations that a computation keeps -/

/-- The machine after the computation, however it ended, is related to the machine
before. -/
def Keeps (R : Machine ι ο → Machine ι ο → Prop) (x : Exec ι ο α) : Prop :=
  ∀ m, R m (x.run m).2

section

variable {R : Machine ι ο → Machine ι ο → Prop}

theorem Keeps.bind (htrans : ∀ ⦃a b c⦄, R a b → R b c → R a c) {x : Exec ι ο α}
    {f : α → Exec ι ο β} (hx : Keeps R x) (hf : ∀ a, Keeps R (f a)) : Keeps R (x >>= f) := by
  intro m
  have hfirst := hx m
  rw [run_bind]
  rcases hrun : x.run m with ⟨e | a, m'⟩
  · -- the first part failed, and nothing came after it
    rw [hrun] at hfirst
    exact hfirst
  · rw [hrun] at hfirst
    exact htrans hfirst (hf a m')

theorem Keeps.followedBy (htrans : ∀ ⦃a b c⦄, R a b → R b c → R a c) {x : Exec ι ο α}
    {y : Exec ι ο Unit} (hx : Keeps R x) (hy : Keeps R y) : Keeps R (followedBy x y) :=
  fun m => htrans (hx m) (hy (x.run m).2)

/-- Where errors are placed has nothing to do with the machine. -/
theorem Keeps.located {x : Exec ι ο α} (hx : Keeps R x) (span : Span) : Keeps R (located span x) :=
  hx

theorem Keeps.require (hrefl : ∀ m, R m m) (r : Except Fault α) :
    Keeps R (require r : Exec ι ο α) := by
  intro m
  cases r <;> exact hrefl m

/-- A loop keeps what its rounds keep. -/
theorem Keeps.rounds (hrefl : ∀ m, R m m) (htrans : ∀ ⦃a b c⦄, R a b → R b c → R a c)
    {round : Int64 → Exec ι ο Flow} (hround : ∀ i, Keeps R (round i)) (i : Int64)
    (count : Nat) : Keeps R (rounds round i count) := by
  induction count generalizing i with
  | zero => exact hrefl
  | succ count ih =>
    refine (hround i).bind htrans (fun flow => ?_)
    match flow with
    | .normal | .jump .continue_ => exact ih (i + 1)
    | .jump .break_ | .exit => exact hrefl

end

/-! ## Laws of execution -/

variable [LineSource ι] [LineSink ο]

/-- A family of relations, one for each list of names that may be stored, that holds of all
actions of a statement. -/
structure Law (R : List String → Machine ι ο → Machine ι ο → Prop) : Prop where
  /-- doing nothing -/
  refl (X : List String) (m : Machine ι ο) : R X m m
  /-- doing one thing after the other -/
  trans {X : List String} ⦃m₁ m₂ m₃ : Machine ι ο⦄ : R X m₁ m₂ → R X m₂ m₃ → R X m₁ m₃
  /-- evaluating an expression -/
  evaluate (X : List String) (e : Expr) : Keeps (R X) (evaluate e : Exec ι ο Value)
  /-- writing a line -/
  write (X : List String) (line : String) : Keeps (R X) (write line : Exec ι ο Unit)
  /-- flushing the output -/
  flush (X : List String) : Keeps (R X) (flush : Exec ι ο Unit)
  /-- storing one of the names; only values that can be stored are -/
  store {X : List String} {x : String} {v : Value} :
    x ∈ X → v.storable = true → Keeps (R X) (store x v : Exec ι ο Unit)
  /-- running statements in a frame of their own, whatever they store there -/
  inFrame {Y : List String} {x : Exec ι ο Flow} (X : List String) :
    Keeps (R Y) x → Keeps (R X) (inFrame x)

/-- The law of a relation between scopes. Evaluating, writing and flushing leave the scopes
alone, so only assignments and blocks are to be looked at. -/
theorem Law.ofScopes {S : List String → Scopes → Scopes → Prop} (hrefl : ∀ X s, S X s s)
    (htrans : ∀ X ⦃s t u⦄, S X s t → S X t u → S X s u)
    (hassign : ∀ {X s t x v}, x ∈ X → v.storable = true → s.assign x v = .ok t → S X s t)
    (hframe : ∀ {X Y s t}, S Y s.push t → S X s t.pop) :
    Law fun X (m m' : Machine ι ο) => S X m.scopes m'.scopes where
  refl X m := hrefl X m.scopes
  trans {X} _ _ _ h₁ h₂ := htrans X h₁ h₂
  evaluate X e m := by
    simp only [Exec.evaluate, ExceptT.run_mk]
    split <;> exact hrefl X m.scopes
  write X line m := by
    simp only [Exec.write, ExceptT.run_mk]
    split <;> exact hrefl X m.scopes
  flush X m := by
    simp only [Exec.flush, ExceptT.run_mk]
    split <;> exact hrefl X m.scopes
  store {X x v} hx hv m := by
    simp only [Exec.store, ExceptT.run_mk]
    rcases ht : m.scopes.assign x v with f | t
    · exact hrefl X m.scopes
    · exact hassign hx hv ht
  inFrame X hx m := hframe (hx { m with scopes := m.scopes.push })

namespace Law

variable {R : List String → Machine ι ο → Machine ι ο → Prop}

theorem assign (law : Law R) {X : List String} (span : Span) {x : String} (e : Expr)
    (hx : x ∈ X) : Keeps (R X) (exec (.assign span x e) : Exec ι ο Flow) := by
  rw [exec_assign]
  refine ((law.evaluate X e).located span).bind law.trans (fun v => ?_)
  by_cases hv : v.storable = true
  · refine ((Keeps.require (law.refl X) _).located span).bind law.trans (fun _ => ?_)
    exact ((law.store hx hv).located span).bind law.trans (fun _ => law.refl X)
  · -- a value that cannot be stored ends the statement before the store
    intro m
    rw [if_neg hv]
    exact law.refl X m

/-- A choice keeps what its branches keep. -/
theorem choice (law : Law R) {X : List String} (span : Span) (cond : Expr)
    {yes no : Exec ι ο Flow} (hyes : Keeps (R X) yes) (hno : Keeps (R X) no) :
    Keeps (R X) (do
      let v ← located span (Exec.evaluate cond)
      if ← located span (require v.asBool) then yes else no) := by
  refine ((law.evaluate X cond).located span).bind law.trans (fun v => ?_)
  refine ((Keeps.require (law.refl X) v.asBool).located span).bind law.trans (fun b => ?_)
  cases b
  · exact hno
  · exact hyes

theorem loop (law : Law R) {X : List String} (span : Span) {x : String} (first last : Expr)
    {body : Stmt} (hx : x ∈ X) (hbody : Keeps (R X) (exec body : Exec ι ο Flow)) :
    Keeps (R X) (exec (.forTo span x first last body) : Exec ι ο Flow) := by
  rw [exec_forTo]
  refine ((law.evaluate X first).located span).bind law.trans (fun a => ?_)
  refine ((law.evaluate X last).located span).bind law.trans (fun b => ?_)
  refine ((Keeps.require (law.refl X) a.asInt).located span).bind law.trans (fun a => ?_)
  refine ((Keeps.require (law.refl X) b.asInt).located span).bind law.trans (fun b => ?_)
  -- a round stores its integer without a check, because integers can be stored
  refine Keeps.rounds (law.refl X) law.trans (fun i => ?_) a (roundCount a b)
  exact ((law.store hx rfl).located span).bind law.trans (fun _ => hbody)

mutual

/-- **A law holds of every statement** that writes no other names. -/
theorem exec (law : Law R) :
    ∀ (s : Stmt) {X : List String}, s.writes ⊆ X → Keeps (R X) (exec s : Exec ι ο Flow)
  | .assign span x e, _, hX => law.assign span e (hX List.mem_cons_self)
  | .print span e, X, _ => by
    rw [exec_print]
    refine ((law.evaluate X e).located span).bind law.trans (fun v => ?_)
    exact ((law.write X v.text).located span).bind law.trans (fun _ => law.refl X)
  | .ifThen span cond yes, X, hX => by
    rw [exec_ifThen]
    exact law.choice span cond (law.exec yes hX) (law.refl X)
  | .ifThenElse span cond yes no, X, hX => by
    rw [exec_ifThenElse]
    obtain ⟨hyes, hno⟩ := List.append_subset.mp hX
    exact law.choice span cond (law.exec yes hyes) (law.exec no hno)
  | .forTo span x first last body, X, hX => by
    obtain ⟨hx, hbody⟩ := List.cons_subset.mp hX
    exact law.loop span first last hx (law.exec body hbody)
  | .block span body, X, _ => by
    rw [exec_block]
    -- what the body writes goes to its own frame, so `X` need not allow for it
    exact law.inFrame X (law.execAll body (List.Subset.refl _))
  | .break_ _, X, _ => law.refl X
  | .continue_ _, X, _ => law.refl X
  | .exit_ _, X, _ => law.refl X

/-- A law holds of statements in sequence. -/
theorem execAll (law : Law R) :
    ∀ (body : List Stmt) {X : List String}, body.flatMap Stmt.writes ⊆ X →
      Keeps (R X) (execAll body : Exec ι ο Flow)
  | [], X, _ => law.refl X
  | s :: rest, X, hX => by
    rw [List.flatMap_cons] at hX
    obtain ⟨hs, hrest⟩ := List.append_subset.mp hX
    rw [execAll_cons]
    refine (law.exec s hs).bind law.trans (fun flow => ?_)
    match flow with
    | .normal => exact law.execAll rest hrest
    | .jump _ | .exit => exact law.refl X

end

/-- A law holds of the statements of a program. -/
theorem runAll (law : Law R) (body : List Stmt) {X : List String}
    (hX : body.flatMap Stmt.writes ⊆ X) : Keeps (R X) (runAll body : Exec ι ο Outcome) := by
  induction body with
  | nil => exact law.refl X
  | cons s rest ih =>
    rw [List.flatMap_cons] at hX
    obtain ⟨hs, hrest⟩ := List.append_subset.mp hX
    refine (law.exec s hs).bind law.trans (fun flow => ?_)
    match flow with
    | .normal => exact ih hrest
    | .jump _ | .exit => exact law.refl X

/-- **A law holds of every program.** -/
theorem run (law : Law R) (p : Program) :
    Keeps (R (p.body.flatMap Stmt.writes)) (p.run : Exec ι ο Outcome) :=
  (law.runAll p.body (List.Subset.refl _)).followedBy law.trans (law.flush _)

end Law

end Exec

end Scriptling

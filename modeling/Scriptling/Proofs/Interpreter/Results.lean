import Scriptling.Proofs.Interpreter.Effects

/-!
# What a computation can come to

A computation ends with a value or with an error. `Ends P Q` says what they are like, in
whatever state the computation is started: its values have the property `P` and its errors
the property `Q`. Such statements are put together along the steps of a computation, as
those about the machine are (`Exec.Keeps`).

The operations that expressions are made of get one statement each, which says what their
operands were if they came to a value and what their operands were not if they failed. What
evaluation as a whole can come to is derived from these.
-/

namespace Scriptling

section

variable {ε σ α β : Type} {P : α → Prop} {Q : ε → Prop}

/-- The value has the one property, or the error has the other. -/
def Meets (P : α → Prop) (Q : ε → Prop) : Except ε α → Prop
  | .ok a => P a
  | .error e => Q e

theorem Meets.mono {P' : α → Prop} {Q' : ε → Prop} {r : Except ε α} (h : Meets P Q r)
    (hP : ∀ a, P a → P' a) (hQ : ∀ e, Q e → Q' e) : Meets P' Q' r := by
  cases r with
  | ok a => exact hP a h
  | error e => exact hQ e h

/-- All values of the computation have the one property, and all its errors the other. -/
def Ends (P : α → Prop) (Q : ε → Prop) (x : ExceptT ε (StateM σ) α) : Prop :=
  ∀ s, Meets P Q (x.run s).1

namespace Ends

theorem pure {a : α} (h : P a) : Ends P Q (pure a : ExceptT ε (StateM σ) α) :=
  fun _ => h

/-- A result that does not touch the state. -/
theorem lift {r : Except ε α} (h : Meets P Q r) :
    Ends P Q (liftM r : ExceptT ε (StateM σ) α) :=
  fun _ => h

/-- One step and what follows it. -/
theorem bind {x : ExceptT ε (StateM σ) α} {f : α → ExceptT ε (StateM σ) β} {P' : β → Prop}
    (hx : Ends P Q x) (hf : ∀ a, P a → Ends P' Q (f a)) : Ends P' Q (x >>= f) := by
  intro s
  have hfirst := hx s
  rw [run_bind]
  rcases hrun : x.run s with ⟨e | a, s'⟩
  · -- the first step failed, and its error is that of the whole
    rw [hrun] at hfirst
    exact hfirst
  · rw [hrun] at hfirst
    exact hf a hfirst s'

theorem mono {x : ExceptT ε (StateM σ) α} {P' : α → Prop} {Q' : ε → Prop} (h : Ends P Q x)
    (hP : ∀ a, P a → P' a) (hQ : ∀ e, Q e → Q' e) : Ends P' Q' x :=
  fun s => (h s).mono hP hQ

theorem of_ok {x : ExceptT ε (StateM σ) α} {s s' : σ} {a : α} (h : Ends P Q x)
    (hrun : x.run s = (.ok a, s')) : P a := by
  have hmeets := h s
  rw [hrun] at hmeets
  exact hmeets

theorem of_error {x : ExceptT ε (StateM σ) α} {s s' : σ} {e : ε} (h : Ends P Q x)
    (hrun : x.run s = (.error e, s')) : Q e := by
  have hmeets := h s
  rw [hrun] at hmeets
  exact hmeets

end Ends

/-- If two computations in order fail, then one of them failed in this way. -/
theorem error_of_followedBy {x : ExceptT ε (StateM σ) α} {y : ExceptT ε (StateM σ) Unit}
    {s s' : σ} {e : ε} (h : (followedBy x y).run s = (.error e, s')) :
    (∃ s₁, x.run s = (.error e, s₁)) ∨ ∃ s₁, y.run s₁ = (.error e, s') := by
  rcases hx : x.run s with ⟨e' | a, s₁⟩
  · left
    simp only [followedBy, ExceptT.run_mk, hx] at h
    cases h
    exact ⟨s₁, rfl⟩
  · right
    rcases hy : y.run s₁ with ⟨e' | u, s₂⟩
    · simp only [followedBy, ExceptT.run_mk, hx, hy] at h
      cases h
      exact ⟨s₁, hy⟩
    · simp only [followedBy, ExceptT.run_mk, hx, hy] at h
      cases h

end

/-! ## Operations on values -/

/-- A fault that the kinds of the operands do not exclude. -/
def Fault.Unforeseen (f : Fault) : Prop :=
  f.category = .divisionByZero ∨ f.category = .channelError

namespace Value

theorem exists_int {v : Value} (h : v.kind = .int) : ∃ n, v = .int n := by
  cases v with
  | int n => exact ⟨n, rfl⟩
  | str | bool => cases h

theorem asInt_meets (v : Value) :
    Meets (fun _ => v.kind = .int) (fun f => v.kind ≠ .int ∧ f.category = .typeError) v.asInt := by
  cases v with
  | int n => exact rfl
  | str | bool => exact ⟨Kind.noConfusion, rfl⟩

theorem asStr_meets (v : Value) :
    Meets (fun _ => v.kind = .str) (fun f => v.kind ≠ .str ∧ f.category = .typeError) v.asStr := by
  cases v with
  | str s => exact rfl
  | int | bool => exact ⟨Kind.noConfusion, rfl⟩

theorem asBool_meets (v : Value) :
    Meets (fun _ => v.kind = .bool) (fun f => v.kind ≠ .bool ∧ f.category = .typeError)
      v.asBool := by
  cases v with
  | bool b => exact rfl
  | int | str => exact ⟨Kind.noConfusion, rfl⟩

end Value

/-- Arithmetic comes to an integer if both operands are integers, unless it divides by zero. -/
theorem ArithOp.onValues_meets (op : ArithOp) (a b : Value) :
    Meets (fun v => (a.kind = .int ∧ b.kind = .int) ∧ v.kind = .int)
      (fun f => f.Unforeseen ∨ ¬ (a.kind = .int ∧ b.kind = .int) ∧ f.category = .typeError)
      (op.onValues a b) := by
  by_cases hkinds : a.kind = .int ∧ b.kind = .int
  · obtain ⟨m, rfl⟩ := Value.exists_int hkinds.1
    obtain ⟨n, rfl⟩ := Value.exists_int hkinds.2
    rw [ArithOp.onValues, ArithOp.compute]
    rcases op.result? m n with _ | r
    · exact Or.inl (Or.inl rfl)
    · exact ⟨hkinds, rfl⟩
  · have hfault : op.onValues a b = .error (.wrongOperands .int a.kind op.text b.kind) := by
      unfold ArithOp.onValues
      split
      · exact absurd ⟨rfl, rfl⟩ hkinds
      · rfl
    rw [hfault]
    exact Or.inr ⟨hkinds, rfl⟩

theorem CompareOp.isSome_onInts?_iff (op : CompareOp) (a b : Int64) :
    (op.onInts? a b).isSome = true ↔ op.operandKind = .int := by
  cases op <;> simp [onInts?, operandKind, onStrings]

theorem CompareOp.isSome_onStrs?_iff (op : CompareOp) (a b : String) :
    (op.onStrs? a b).isSome = true ↔ op.operandKind = .str := by
  cases op <;> simp [onStrs?, operandKind, onStrings]

/-- Two values compare if both are of the kind that the operator is about. -/
theorem CompareOp.isSome_holds?_iff (op : CompareOp) (a b : Value) :
    (op.holds? a b).isSome = true ↔ a.kind = op.operandKind ∧ b.kind = op.operandKind := by
  have hkind : op.operandKind = .int ∨ op.operandKind = .str := by
    cases op <;> decide
  cases a <;> cases b
  case int.int a b => simp [holds?, op.isSome_onInts?_iff, Value.kind, eq_comm]
  case str.str a b => simp [holds?, op.isSome_onStrs?_iff, Value.kind, eq_comm]
  all_goals obtain h | h := hkind <;> simp [holds?, Value.kind, h]

/-- A comparison comes to a boolean if both operands are of the kind it is about. -/
theorem CompareOp.onValues_meets (op : CompareOp) (a b : Value) :
    Meets (fun v => (a.kind = op.operandKind ∧ b.kind = op.operandKind) ∧ v.kind = .bool)
      (fun f => ¬ (a.kind = op.operandKind ∧ b.kind = op.operandKind) ∧ f.category = .typeError)
      (op.onValues a b) := by
  rw [← op.isSome_holds?_iff, CompareOp.onValues]
  rcases op.holds? a b with _ | r
  · exact ⟨Bool.noConfusion, rfl⟩
  · exact ⟨rfl, rfl⟩

/-- The kind that an operator of one operand takes and gives. -/
def UnaryOp.kind : UnaryOp → Kind
  | neg => .int
  | not => .bool

theorem UnaryOp.onValue_meets (op : UnaryOp) (v : Value) :
    Meets (fun w => v.kind = op.kind ∧ w.kind = op.kind)
      (fun f => v.kind ≠ op.kind ∧ f.category = .typeError) (op.onValue v) := by
  cases op <;> cases v
  case neg.int | not.bool => exact ⟨rfl, rfl⟩
  all_goals exact ⟨Kind.noConfusion, rfl⟩

/-! ## Variables and input -/

/-- A variable comes to its visible value, if it has one. -/
theorem Scopes.lookup_meets (scopes : Scopes) (x : String) :
    Meets (fun v => scopes.get? x = some v)
      (fun f => scopes.get? x = none ∧ f.category = .undefinedVariable) (scopes.lookup x) := by
  rw [Scopes.lookup]
  rcases scopes.get? x with _ | v
  · exact ⟨rfl, rfl⟩
  · exact rfl

theorem integerOfLine_meets (line : String) :
    Meets (fun v => v.kind = .int) (fun f => f.category = .channelError) (integerOfLine line) := by
  rw [integerOfLine]
  rcases Text.readInt? (Text.trim line.toList) with _ | n
  · exact rfl
  · exact rfl

theorem readLine_ends {ι : Type} [LineSource ι] :
    Ends (fun _ => True) (fun f => f.category = .channelError) (readLine : Eval ι String) := by
  intro input
  simp only [readLine, ExceptT.run_mk]
  rcases LineSource.next input with ⟨_ | _ | _, rest⟩
  · trivial
  · exact rfl
  · exact rfl

/-! ## Faults of expressions -/

/-- A fault of a class that expressions can bring up. -/
def Fault.OfExpr (f : Fault) : Prop :=
  f.category ∈ [.undefinedVariable, .typeError, .divisionByZero, .channelError]

theorem Fault.OfExpr.of_category {f : Fault} {c : FaultCategory} (h : f.category = c)
    (hc : c ∈ [.undefinedVariable, .typeError, .divisionByZero, .channelError]) : f.OfExpr := by
  rw [OfExpr, h]
  exact hc

/-- **Expressions bring up four classes of faults** and no others. -/
theorem eval_faults {ι : Type} [LineSource ι] (scopes : Scopes) (e : Expr) :
    Ends (fun _ => True) Fault.OfExpr (eval scopes e : Eval ι Value) := by
  have hint (v : Value) : Ends (fun _ => True) Fault.OfExpr (liftM v.asInt : Eval ι Int64) :=
    .lift (v.asInt_meets.mono (fun _ _ => trivial) fun f hf => .of_category hf.2 (by decide))
  have hstr (v : Value) : Ends (fun _ => True) Fault.OfExpr (liftM v.asStr : Eval ι String) :=
    .lift (v.asStr_meets.mono (fun _ _ => trivial) fun f hf => .of_category hf.2 (by decide))
  have hbool (v : Value) : Ends (fun _ => True) Fault.OfExpr (liftM v.asBool : Eval ι Bool) :=
    .lift (v.asBool_meets.mono (fun _ _ => trivial) fun f hf => .of_category hf.2 (by decide))
  have hline : Ends (fun _ => True) Fault.OfExpr (readLine : Eval ι String) :=
    readLine_ends.mono (fun _ h => h) fun f hf => .of_category hf (by decide)
  induction e with
  | int | str | bool =>
    rw [eval]
    exact .pure trivial
  | var _ x =>
    rw [eval]
    exact .lift ((scopes.lookup_meets x).mono (fun _ _ => trivial) fun f hf =>
      .of_category hf.2 (by decide))
  | arith _ l op r ihl ihr =>
    rw [eval]
    refine ihl.bind fun a _ => ihr.bind fun b _ => ?_
    refine .lift ((op.onValues_meets a b).mono (fun _ _ => trivial) fun f hf => ?_)
    obtain (hf | hf) | ⟨-, hf⟩ := hf
    all_goals exact .of_category hf (by decide)
  | compare _ l op r ihl ihr =>
    rw [eval]
    refine ihl.bind fun a _ => ihr.bind fun b _ => ?_
    exact .lift ((op.onValues_meets a b).mono (fun _ _ => trivial) fun f hf =>
      .of_category hf.2 (by decide))
  | logic _ l op r ihl ihr =>
    rw [eval]
    refine ihl.bind fun v _ => (hbool v).bind fun a _ => ?_
    rcases op.decided? a with _ | r
    · exact ihr.bind fun w _ => (hbool w).bind fun b _ => .pure trivial
    · exact .pure trivial
  | unary _ op e ih =>
    rw [eval]
    refine ih.bind fun a _ => ?_
    exact .lift ((op.onValue_meets a).mono (fun _ _ => trivial) fun f hf =>
      .of_category hf.2 (by decide))
  | length _ t ih =>
    rw [eval]
    exact ih.bind fun a _ => (hstr a).bind fun s _ => .pure trivial
  | position _ l r ihl ihr | concatenate _ l r ihl ihr =>
    rw [eval]
    refine ihl.bind fun a _ => ihr.bind fun b _ => ?_
    exact (hstr a).bind fun s _ => (hstr b).bind fun t _ => .pure trivial
  | substring _ t b n iht ihb ihn =>
    rw [eval]
    refine iht.bind fun a _ => ihb.bind fun b _ => ihn.bind fun c _ => ?_
    refine (hstr a).bind fun s _ => (hint b).bind fun i _ => ?_
    exact (hint c).bind fun n _ => .pure trivial
  | readInt _ =>
    rw [eval]
    refine hline.bind fun line _ => ?_
    exact .lift ((integerOfLine_meets line).mono (fun _ _ => trivial) fun f hf =>
      .of_category hf (by decide))
  | readStr _ =>
    rw [eval]
    exact hline.bind fun line _ => .pure trivial

end Scriptling

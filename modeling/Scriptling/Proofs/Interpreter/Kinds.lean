import Scriptling.Proofs.Interpreter.Results

/-!
# Kinds of expressions

The kind of an expression can be told from its text and from the kinds of the variables it
mentions (`Expr.HasKind`): each operator takes operands of fixed kinds and gives a value of
a fixed kind.

An expression that has a kind comes to a value of this kind, whatever the values of the
variables and the lines of input are, unless it divides by zero or a line cannot be had. The
other way round an expression that came to a value has the kind of the value. The exceptions
are the connectives: what they do not evaluate can be of any kind or of none.
-/

namespace Scriptling

/-- The kinds of the visible variables. -/
def Scopes.kinds (s : Scopes) (x : String) : Option Kind :=
  (s.get? x).map Value.kind

namespace Expr

/-- The expression is of the kind if the variables are of the kinds `K`. -/
inductive HasKind (K : String → Option Kind) : Expr → Kind → Prop
  | int (span : Span) (n : Int64) : HasKind K (.int span n) .int
  | str (span : Span) (s : String) : HasKind K (.str span s) .str
  | bool (span : Span) (b : Bool) : HasKind K (.bool span b) .bool
  | var (span : Span) {x : String} {k : Kind} : K x = some k → HasKind K (.var span x) k
  | arith (span : Span) (op : ArithOp) {l r : Expr} :
      HasKind K l .int → HasKind K r .int → HasKind K (.arith span l op r) .int
  | compareStrs (span : Span) {op : CompareOp} {l r : Expr} : op ∈ [.strEq, .strNotEq] →
      HasKind K l .str → HasKind K r .str → HasKind K (.compare span l op r) .bool
  | compareInts (span : Span) {op : CompareOp} {l r : Expr} :
      op ∈ [.eq, .notEq, .lt, .gt, .ltEq, .gtEq] →
      HasKind K l .int → HasKind K r .int → HasKind K (.compare span l op r) .bool
  | logic (span : Span) (op : LogicOp) {l r : Expr} :
      HasKind K l .bool → HasKind K r .bool → HasKind K (.logic span l op r) .bool
  | neg (span : Span) {e : Expr} : HasKind K e .int → HasKind K (.unary span .neg e) .int
  | not (span : Span) {e : Expr} : HasKind K e .bool → HasKind K (.unary span .not e) .bool
  | length (span : Span) {e : Expr} : HasKind K e .str → HasKind K (.length span e) .int
  | position (span : Span) {h n : Expr} :
      HasKind K h .str → HasKind K n .str → HasKind K (.position span h n) .int
  | concatenate (span : Span) {l r : Expr} :
      HasKind K l .str → HasKind K r .str → HasKind K (.concatenate span l r) .str
  | substring (span : Span) {t b n : Expr} :
      HasKind K t .str → HasKind K b .int → HasKind K n .int →
      HasKind K (.substring span t b n) .str
  | readInt (span : Span) : HasKind K (.readInt span) .int
  | readStr (span : Span) : HasKind K (.readStr span) .str

/-- Whether a connective occurs in the expression. -/
def usesLogic : Expr → Bool
  | logic .. => true
  | int .. | str .. | bool .. | var .. | readInt _ | readStr _ => false
  | unary _ _ a | length _ a => a.usesLogic
  | arith _ a _ b | compare _ a _ b | position _ a b | concatenate _ a b =>
    a.usesLogic || b.usesLogic
  | substring _ a b c => a.usesLogic || b.usesLogic || c.usesLogic

/-- The two rules for comparisons in one. -/
theorem HasKind.compare {K : String → Option Kind} (span : Span) {op : CompareOp} {l r : Expr}
    (hl : HasKind K l op.operandKind) (hr : HasKind K r op.operandKind) :
    HasKind K (.compare span l op r) .bool := by
  cases op
  case strEq | strNotEq => exact .compareStrs span (by decide) hl hr
  all_goals exact .compareInts span (by decide) hl hr

/-- The two rules for operators of one operand in one. -/
theorem HasKind.unary {K : String → Option Kind} (span : Span) {op : UnaryOp} {e : Expr}
    (he : HasKind K e op.kind) : HasKind K (.unary span op e) op.kind := by
  cases op with
  | neg => exact .neg span he
  | not => exact .not span he

end Expr

/-- An operation that only objects to unfit operands does not object to fit ones. -/
theorem Meets.of_fits {ε α : Type} {P : α → Prop} {Q R : ε → Prop} {fits : Prop}
    {r : Except ε α} (h : Meets P (fun e => ¬ fits ∧ R e) r) (hfits : fits) : Meets P Q r :=
  h.mono (fun _ ha => ha) (fun _ he => absurd hfits he.1)

/-- What is known about the value of an operation, whatever its errors are. -/
theorem Meets.value {ε α : Type} {P : α → Prop} {Q : ε → Prop} {r : Except ε α}
    (h : Meets P Q r) : Meets P (fun _ => True) r :=
  h.mono (fun _ ha => ha) (fun _ _ => trivial)

section

variable {ι : Type} [LineSource ι] {scopes : Scopes}

/-! ## What has a kind comes to it -/

/-- **An expression with a kind comes to a value of the kind**, unless a fault that kinds do not
exclude comes up. -/
theorem Expr.HasKind.ends {e : Expr} {k : Kind} (h : e.HasKind scopes.kinds k) :
    Ends (fun v => v.kind = k) Fault.Unforeseen (eval scopes e : Eval ι Value) := by
  induction h with
  | int | str | bool =>
    rw [eval]
    exact .pure rfl
  | @var span x k hx =>
    rw [eval]
    refine .lift ((scopes.lookup_meets x).mono (fun v hv => ?_) (fun f hf => ?_))
    · rw [Scopes.kinds, hv] at hx
      exact Option.some.inj hx
    · -- a variable with a kind is visible
      rw [Scopes.kinds, hf.1] at hx
      cases hx
  | arith span op _ _ ihl ihr =>
    rw [eval]
    refine ihl.bind fun a ha => ihr.bind fun b hb => ?_
    refine .lift ((op.onValues_meets a b).mono (fun v hv => hv.2) (fun f hf => ?_))
    obtain hunforeseen | ⟨hunfit, -⟩ := hf
    · exact hunforeseen
    · exact absurd ⟨ha, hb⟩ hunfit
  | @compareStrs span op _ _ hop _ _ ihl ihr =>
    have hkind : op.operandKind = .str := by
      revert op
      decide
    rw [eval]
    refine ihl.bind fun a ha => ihr.bind fun b hb => ?_
    rw [← hkind] at ha hb
    exact .lift (((op.onValues_meets a b).of_fits ⟨ha, hb⟩).mono (fun v hv => hv.2) fun f hf => hf)
  | @compareInts span op _ _ hop _ _ ihl ihr =>
    have hkind : op.operandKind = .int := by
      revert op
      decide
    rw [eval]
    refine ihl.bind fun a ha => ihr.bind fun b hb => ?_
    rw [← hkind] at ha hb
    exact .lift (((op.onValues_meets a b).of_fits ⟨ha, hb⟩).mono (fun v hv => hv.2) fun f hf => hf)
  | logic span op _ _ ihl ihr =>
    rw [eval]
    refine ihl.bind fun v hv => (Ends.lift (v.asBool_meets.of_fits hv)).bind fun a _ => ?_
    rcases op.decided? a with _ | r
    · exact ihr.bind fun w hw => (Ends.lift (w.asBool_meets.of_fits hw)).bind fun b _ => .pure rfl
    · exact .pure rfl
  | neg span _ ih =>
    rw [eval]
    refine ih.bind fun a ha => .lift ?_
    exact ((UnaryOp.neg.onValue_meets a).of_fits ha).mono (fun v hv => hv.2) fun f hf => hf
  | not span _ ih =>
    rw [eval]
    refine ih.bind fun a ha => .lift ?_
    exact ((UnaryOp.not.onValue_meets a).of_fits ha).mono (fun v hv => hv.2) fun f hf => hf
  | length span _ ih =>
    rw [eval]
    exact ih.bind fun a ha => (Ends.lift (a.asStr_meets.of_fits ha)).bind fun s _ => .pure rfl
  | position span _ _ ihh ihn | concatenate span _ _ ihh ihn =>
    rw [eval]
    refine ihh.bind fun a ha => ihn.bind fun b hb => ?_
    refine (Ends.lift (a.asStr_meets.of_fits ha)).bind fun s _ => ?_
    exact (Ends.lift (b.asStr_meets.of_fits hb)).bind fun t _ => .pure rfl
  | substring span _ _ _ iht ihb ihn =>
    rw [eval]
    refine iht.bind fun a ha => ihb.bind fun b hb => ihn.bind fun c hc => ?_
    refine (Ends.lift (a.asStr_meets.of_fits ha)).bind fun s _ => ?_
    refine (Ends.lift (b.asInt_meets.of_fits hb)).bind fun i _ => ?_
    exact (Ends.lift (c.asInt_meets.of_fits hc)).bind fun n _ => .pure rfl
  | readInt =>
    rw [eval]
    refine (readLine_ends.mono (fun _ h => h) fun f hf => Or.inr hf).bind fun line _ => ?_
    exact .lift ((integerOfLine_meets line).mono (fun _ h => h) fun f hf => Or.inr hf)
  | readStr =>
    rw [eval]
    refine (readLine_ends.mono (fun _ h => h) fun f hf => Or.inr hf).bind fun line _ => ?_
    exact .pure rfl

/-! ## What comes to a value has its kind -/

/-- **An expression that came to a value has its kind**, if it holds no connective. -/
theorem Expr.hasKind_ends (e : Expr) (he : e.usesLogic = false) :
    Ends (fun v => e.HasKind scopes.kinds v.kind) (fun _ => True)
      (eval scopes e : Eval ι Value) := by
  induction e with
  | int span n =>
    rw [eval]
    exact .pure (.int span n)
  | str span s =>
    rw [eval]
    exact .pure (.str span s)
  | bool span b =>
    rw [eval]
    exact .pure (.bool span b)
  | var span x =>
    rw [eval]
    refine .lift ((scopes.lookup_meets x).value.mono (fun v hv => .var span ?_) fun _ h => h)
    rw [Scopes.kinds, hv]
    rfl
  | arith span l op r ihl ihr =>
    obtain ⟨hl, hr⟩ := Bool.or_eq_false_iff.mp he
    rw [eval]
    refine (ihl hl).bind fun a ha => (ihr hr).bind fun b hb => ?_
    refine .lift ((op.onValues_meets a b).value.mono (fun v hv => ?_) fun _ h => h)
    obtain ⟨⟨hka, hkb⟩, hkv⟩ := hv
    rw [hka] at ha
    rw [hkb] at hb
    rw [hkv]
    exact .arith span op ha hb
  | compare span l op r ihl ihr =>
    obtain ⟨hl, hr⟩ := Bool.or_eq_false_iff.mp he
    rw [eval]
    refine (ihl hl).bind fun a ha => (ihr hr).bind fun b hb => ?_
    refine .lift ((op.onValues_meets a b).value.mono (fun v hv => ?_) fun _ h => h)
    obtain ⟨⟨hka, hkb⟩, hkv⟩ := hv
    rw [hka] at ha
    rw [hkb] at hb
    rw [hkv]
    exact .compare span ha hb
  | logic => cases he
  | unary span op a ih =>
    rw [eval]
    refine (ih he).bind fun a ha => ?_
    refine .lift ((op.onValue_meets a).value.mono (fun v hv => ?_) fun _ h => h)
    rw [hv.1] at ha
    rw [hv.2]
    exact .unary span ha
  | length span t ih =>
    rw [eval]
    refine (ih he).bind fun a ha => (Ends.lift a.asStr_meets.value).bind fun s hs => ?_
    exact .pure (.length span (hs ▸ ha))
  | position span h n ihh ihn =>
    obtain ⟨hh, hn⟩ := Bool.or_eq_false_iff.mp he
    rw [eval]
    refine (ihh hh).bind fun a ha => (ihn hn).bind fun b hb => ?_
    refine (Ends.lift a.asStr_meets.value).bind fun s hs => ?_
    refine (Ends.lift b.asStr_meets.value).bind fun t ht => ?_
    exact .pure (.position span (hs ▸ ha) (ht ▸ hb))
  | concatenate span l r ihl ihr =>
    obtain ⟨hl, hr⟩ := Bool.or_eq_false_iff.mp he
    rw [eval]
    refine (ihl hl).bind fun a ha => (ihr hr).bind fun b hb => ?_
    refine (Ends.lift a.asStr_meets.value).bind fun s hs => ?_
    refine (Ends.lift b.asStr_meets.value).bind fun t ht => ?_
    exact .pure (.concatenate span (hs ▸ ha) (ht ▸ hb))
  | substring span t b n iht ihb ihn =>
    obtain ⟨htb, hn⟩ := Bool.or_eq_false_iff.mp he
    obtain ⟨ht, hb⟩ := Bool.or_eq_false_iff.mp htb
    rw [eval]
    refine (iht ht).bind fun a ha => (ihb hb).bind fun b hb => (ihn hn).bind fun c hc => ?_
    refine (Ends.lift a.asStr_meets.value).bind fun s hs => ?_
    refine (Ends.lift b.asInt_meets.value).bind fun i hi => ?_
    refine (Ends.lift c.asInt_meets.value).bind fun n hn => ?_
    exact .pure (.substring span (hs ▸ ha) (hi ▸ hb) (hn ▸ hc))
  | readInt span =>
    rw [eval]
    refine (readLine_ends.mono (fun _ h => h) fun _ _ => trivial).bind fun line _ => ?_
    refine .lift ((integerOfLine_meets line).value.mono (fun v hv => ?_) fun _ h => h)
    rw [hv]
    exact .readInt span
  | readStr span =>
    rw [eval]
    refine (readLine_ends.mono (fun _ h => h) fun _ _ => trivial).bind fun line _ => ?_
    exact .pure (.readStr span)

/-- **Kind soundness.** If an expression has a kind, given the kinds of the visible variables,
then it comes to a value of this kind or fails with a division by zero or for want of input, and
in no other way. If an expression without connectives comes to a value, then it has the kind of
this value. -/
theorem eval_kind_sound (scopes : Scopes) (e : Expr) (input : ι) :
    (∀ k, e.HasKind scopes.kinds k →
      (∃ v rest, (eval scopes e).run input = (.ok v, rest) ∧ v.kind = k) ∨
      ∃ f rest, (eval scopes e).run input = (.error f, rest) ∧
        (f.category = .divisionByZero ∨ f.category = .channelError)) ∧
    (e.usesLogic = false → ∀ v rest, (eval scopes e).run input = (.ok v, rest) →
      e.HasKind scopes.kinds v.kind) := by
  constructor
  · intro k hk
    rcases hrun : (eval scopes e : Eval ι Value).run input with ⟨f | v, rest⟩
    · exact Or.inr ⟨f, rest, rfl, hk.ends.of_error hrun⟩
    · exact Or.inl ⟨v, rest, rfl, hk.ends.of_ok hrun⟩
  · intro hlogic v rest hrun
    exact (e.hasKind_ends hlogic).of_ok hrun

end

/-- `x % readint()` with an integer in `x` is an integer. Which line is read decides whether it
comes to one. -/
theorem eval_kind_sound_remainder :
    ∃ (scopes : Scopes) (e : Expr),
      scopes = ⟨[], (∅ : Frame).insert "x" (.int 7), .byName⟩ ∧
      e = .arith ⟨0, 13⟩ (.var ⟨0, 1⟩ "x") .mod (.readInt ⟨4, 13⟩) ∧
      e.HasKind scopes.kinds .int ∧ e.usesLogic = false ∧
      (eval scopes e).run ["0"] = (.error .divisionByZero, []) ∧
      ((∃ v rest, (eval scopes e).run ["0"] = (.ok v, rest) ∧ v.kind = .int) ∨
        ∃ f rest, (eval scopes e).run ["0"] = (.error f, rest) ∧
          (f.category = .divisionByZero ∨ f.category = .channelError)) ∧
      (eval scopes e).run ["4"] = (.ok (.int 3), []) ∧
      e.HasKind scopes.kinds (Value.int 3).kind := by
  let scopes : Scopes := ⟨[], (∅ : Frame).insert "x" (.int 7), .byName⟩
  let e : Expr := .arith ⟨0, 13⟩ (.var ⟨0, 1⟩ "x") .mod (.readInt ⟨4, 13⟩)
  have hx : scopes.kinds "x" = some .int := rfl
  have hkind : e.HasKind scopes.kinds .int := .arith _ _ (.var _ hx) (.readInt _)
  have hzero : (eval scopes e).run ["0"] = (.error .divisionByZero, []) := by
    with_unfolding_all rfl
  have hfour : (eval scopes e).run ["4"] = (.ok (.int 3), []) := by
    with_unfolding_all rfl
  exact ⟨scopes, e, rfl, rfl, hkind, rfl, hzero, (eval_kind_sound scopes e ["0"]).1 .int hkind,
    hfour, (eval_kind_sound scopes e ["4"]).2 rfl _ _ hfour⟩

end Scriptling

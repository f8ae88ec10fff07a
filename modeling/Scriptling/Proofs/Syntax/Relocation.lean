import Mathlib.Order.MinMax
import Scriptling.Proofs.Grammar.Lookahead

/-!
# Trees at other places

Moving a text within its source moves all offsets in its tree by one number; forgetting
where a tree comes from sets all offsets to one number. Both are *relocations*: a monotone
function is applied to every offset (`Expr.relocate`, `Stmt.relocate`).

Rules commute with relocation (`Rule.build_relocate`): the spans that they compute are hulls
of spans, or run from the start of one token to the stop of another, and monotone functions
respect both. So relocated tokens spell the relocated values (`Spells.relocate`), and they
spell nothing else (`Spells.of_relocate`).
-/

namespace Scriptling

/-! ## Relocating tokens and trees -/

/-- Both ends of a span moved. -/
def Span.relocate (g : Nat → Nat) (s : Span) : Span :=
  ⟨g s.start, g s.stop⟩

/-- A token at another place. -/
def Placed.relocate (g : Nat → Nat) (t : Placed) : Placed :=
  ⟨t.token, t.span.relocate g⟩

theorem Placed.relocate_injective {g : Nat → Nat} (hg : Function.Injective g) :
    Function.Injective (Placed.relocate g) := by
  rintro ⟨t, a, b⟩ ⟨u, c, d⟩ h
  simp only [Placed.relocate, Span.relocate, Placed.mk.injEq, Span.mk.injEq] at h
  obtain ⟨rfl, hstart, hstop⟩ := h
  rw [hg hstart, hg hstop]

/-- An expression with all its offsets moved. -/
def Expr.relocate (g : Nat → Nat) : Expr → Expr
  | int s n => int (s.relocate g) n
  | str s t => str (s.relocate g) t
  | bool s b => bool (s.relocate g) b
  | var s x => var (s.relocate g) x
  | arith s l op r => arith (s.relocate g) (l.relocate g) op (r.relocate g)
  | compare s l op r => compare (s.relocate g) (l.relocate g) op (r.relocate g)
  | logic s l op r => logic (s.relocate g) (l.relocate g) op (r.relocate g)
  | unary s op e => unary (s.relocate g) op (e.relocate g)
  | length s e => length (s.relocate g) (e.relocate g)
  | position s h n => position (s.relocate g) (h.relocate g) (n.relocate g)
  | concatenate s l r => concatenate (s.relocate g) (l.relocate g) (r.relocate g)
  | substring s t b n => substring (s.relocate g) (t.relocate g) (b.relocate g) (n.relocate g)
  | readInt s => readInt (s.relocate g)
  | readStr s => readStr (s.relocate g)

mutual

/-- A statement with all its offsets moved. -/
def Stmt.relocate (g : Nat → Nat) : Stmt → Stmt
  | .assign s x e => .assign (s.relocate g) x (e.relocate g)
  | .print s e => .print (s.relocate g) (e.relocate g)
  | .ifThen s c yes => .ifThen (s.relocate g) (c.relocate g) (yes.relocate g)
  | .ifThenElse s c yes no =>
    .ifThenElse (s.relocate g) (c.relocate g) (yes.relocate g) (no.relocate g)
  | .forTo s x a b body =>
    .forTo (s.relocate g) x (a.relocate g) (b.relocate g) (body.relocate g)
  | .block s body => .block (s.relocate g) (Stmt.relocateAll g body)
  | .break_ s => .break_ (s.relocate g)
  | .continue_ s => .continue_ (s.relocate g)
  | .exit_ s => .exit_ (s.relocate g)

/-- Statements with all their offsets moved. -/
def Stmt.relocateAll (g : Nat → Nat) : List Stmt → List Stmt
  | [] => []
  | s :: rest => s.relocate g :: Stmt.relocateAll g rest

end

theorem Stmt.relocateAll_eq_map (g : Nat → Nat) (body : List Stmt) :
    Stmt.relocateAll g body = body.map (Stmt.relocate g) := by
  induction body with
  | nil => rfl
  | cons s rest ih => rw [Stmt.relocateAll, ih, List.map_cons]

/-- A program with all its offsets moved. -/
def Program.relocate (g : Nat → Nat) (p : Program) : Program :=
  ⟨p.body.map (Stmt.relocate g)⟩

/-- A value with all its offsets moved. -/
def Nonterminal.relocate (g : Nat → Nat) : (n : Nonterminal) → n.Value → n.Value
  | program, p => Program.relocate g p
  | stmtList, body | stmts, body => body.map (Stmt.relocate g)
  | stmt, s | closedStmt, s | openStmt, s | simpleStmt, s => Stmt.relocate g s
  | expr, e | orExpr, e | andExpr, e | compareExpr, e | sumExpr, e | productExpr, e
  | unaryExpr, e | primary, e => Expr.relocate g e
  | compareOp, op => op
  | sumOp, op | productOp, op => op

/-- A value with all its offsets moved; what a token carries has none. -/
def Symbol.relocate (g : Nat → Nat) : (s : Symbol) → s.Value → s.Value
  | terminal _, v => v
  | nonterminal n, v => n.relocate g v

/-- The values of a row, each with all its offsets moved. -/
def Values.relocate (g : Nat → Nat) : (row : List Symbol) → Values row → Values row
  | [], _ => ()
  | s :: row, (v, vs) => (s.relocate g v, Values.relocate g row vs)

@[simp] theorem Expr.span_relocate (g : Nat → Nat) (e : Expr) :
    (e.relocate g).span = e.span.relocate g := by
  cases e <;> rfl

@[simp] theorem Stmt.span_relocate (g : Nat → Nat) (s : Stmt) :
    (s.relocate g).span = s.span.relocate g := by
  cases s <;> rfl

@[simp] theorem Expr.relocate_withSpan (g : Nat → Nat) (s : Span) (e : Expr) :
    (e.withSpan s).relocate g = (e.relocate g).withSpan (s.relocate g) := by
  cases e <;> rfl

theorem Expr.relocate_relocate (f g : Nat → Nat) (e : Expr) :
    (e.relocate f).relocate g = e.relocate (g ∘ f) := by
  induction e with
  | int | str | bool | var | readInt | readStr => rfl
  | unary _ _ _ ih | length _ _ ih =>
    simp only [Expr.relocate, ih]
    rfl
  | arith _ _ _ _ ihl ihr | compare _ _ _ _ ihl ihr | logic _ _ _ _ ihl ihr
  | position _ _ _ ihl ihr | concatenate _ _ _ ihl ihr =>
    simp only [Expr.relocate, ihl, ihr]
    rfl
  | substring _ _ _ _ iht ihb ihn =>
    simp only [Expr.relocate, iht, ihb, ihn]
    rfl

/-- Nothing is moved. -/
@[simp] theorem Expr.relocate_id (e : Expr) : e.relocate id = e := by
  induction e with
  | _ => simp_all [Expr.relocate, Span.relocate]

mutual

@[simp] theorem Stmt.relocate_id : ∀ s : Stmt, s.relocate id = s
  | .assign .. | .print .. | .break_ _ | .continue_ _ | .exit_ _ => by
    simp [Stmt.relocate, Span.relocate]
  | .ifThen _ _ yes => by simp [Stmt.relocate, Span.relocate, yes.relocate_id]
  | .ifThenElse _ _ yes no => by
    simp [Stmt.relocate, Span.relocate, yes.relocate_id, no.relocate_id]
  | .forTo _ _ _ _ body => by simp [Stmt.relocate, Span.relocate, body.relocate_id]
  | .block _ body => by simp [Stmt.relocate, Span.relocate, Stmt.relocateAll_id body]

theorem Stmt.relocateAll_id : ∀ body : List Stmt, Stmt.relocateAll id body = body
  | [] => rfl
  | s :: rest => by rw [Stmt.relocateAll, s.relocate_id, Stmt.relocateAll_id rest]

end

@[simp] theorem Program.relocate_id (p : Program) : p.relocate id = p := by
  rw [Program.relocate, ← Stmt.relocateAll_eq_map, Stmt.relocateAll_id]

/-- An expression that stands further behind. -/
def Expr.shift (k : Nat) (e : Expr) : Expr :=
  e.relocate (· + k)

/-- A statement that stands further behind. -/
def Stmt.shift (k : Nat) (s : Stmt) : Stmt :=
  s.relocate (· + k)

/-- An expression of which the places are forgotten. -/
def Expr.erase (e : Expr) : Expr :=
  e.relocate fun _ => 0

/-- A statement of which the places are forgotten. -/
def Stmt.erase (s : Stmt) : Stmt :=
  s.relocate fun _ => 0

/-- A program of which the places are forgotten. -/
def Program.erase (p : Program) : Program :=
  p.relocate fun _ => 0

/-! ## Rules commute with relocation -/

section

variable {g : Nat → Nat}

/-- The hull of two relocated expressions. -/
theorem Expr.relocate_merge_span (hg : Monotone g) (l r : Expr) :
    (l.span.merge r.span).relocate g = (l.relocate g).span.merge (r.relocate g).span := by
  simp only [Expr.span_relocate, Span.relocate, Span.merge, hg.map_min, hg.map_max]

/-- **Rules commute with relocation.** -/
theorem Rule.build_relocate (hg : Monotone g) (r : Rule) (here : Span) (vs : Values r.rhs) :
    r.lhs.relocate g (r.build here vs) =
      r.build (here.relocate g) (Values.relocate g r.rhs vs) := by
  cases r
  -- an operator between two operands: the hull of their spans
  case or_ | and_ => exact congrArg (Expr.logic · _ _ _) (Expr.relocate_merge_span hg _ _)
  case compare => exact congrArg (Expr.compare · _ _ _) (Expr.relocate_merge_span hg _ _)
  case sum | product => exact congrArg (Expr.arith · _ _ _) (Expr.relocate_merge_span hg _ _)
  case parens => exact Expr.relocate_withSpan g here _
  case stmtsOnly | stmtsSemi => exact List.map_reverse
  case block => exact congrArg (Stmt.block _) (Stmt.relocateAll_eq_map g _)
  all_goals rfl

/-- Only programs and lists of statements can be without tokens. -/
theorem Nonterminal.eq_of_nullable {n : Nonterminal} (h : (firsts.of n).nullable = true) :
    n = .program ∨ n = .stmtList := by
  have hall : ∀ n ∈ Nonterminal.all, (firsts.of n).nullable = true →
      n = .program ∨ n = .stmtList := by
    decide +kernel
  exact hall n n.mem_all h

/-- A phrase without tokens does not look at its place. -/
theorem Rule.build_of_nullable {r : Rule} (h : (firsts.of r.lhs).nullable = true)
    (here there : Span) (vs : Values r.rhs) : r.build here vs = r.build there vs := by
  have hr : r ∈ Nonterminal.program.rules ∨ r ∈ Nonterminal.stmtList.rules := by
    simpa only [Nonterminal.mem_rules_iff] using Nonterminal.eq_of_nullable h
  simp only [Nonterminal.rules, List.mem_cons, List.not_mem_nil, or_false] at hr
  obtain rfl | rfl | rfl | rfl := hr
  all_goals rfl

/-- The place of relocated tokens. -/
theorem Placed.extent_relocate (g : Nat → Nat) (ts : List Placed) :
    Placed.extent (ts.map (Placed.relocate g)) = (Placed.extent ts).map (Span.relocate g) := by
  simp only [Placed.extent, List.head?_map, List.getLast?_map]
  cases ts.head? <;> cases ts.getLast? <;> rfl

/-- What a derived phrase builds, built at its relocated tokens. -/
theorem Rule.build_extent_relocate (hg : Monotone g) (r : Rule) {ts : List Placed}
    {vs : Values r.rhs} (h : Spells r.rhs ts vs) :
    r.build (Placed.extent (ts.map (Placed.relocate g))).span (Values.relocate g r.rhs vs) =
      r.lhs.relocate g (r.build (Placed.extent ts).span vs) := by
  rw [Rule.build_relocate hg, Placed.extent_relocate]
  rcases hplace : Placed.extent ts with _ | place
  · obtain rfl : ts = [] := by
      rcases ts with _ | ⟨t, ts⟩
      · rfl
      · simp [Placed.extent, List.getLast?_cons] at hplace
    exact Rule.build_of_nullable (firsts_nullable r (h.rowNullable rfl)) ..
  · rfl

/-- Relocated tokens spell the relocated values. -/
theorem Spells.relocate (hg : Monotone g) {row : List Symbol} {ts : List Placed}
    {vs : Values row} (h : Spells row ts vs) :
    Spells row (ts.map (Placed.relocate g)) (Values.relocate g row vs) := by
  induction h with
  | nil => exact .nil
  | token t _ ih => exact .token (t.relocate g) ih
  | rule r hrhs _ ihrhs ihrow =>
    have hrule := Spells.rule r ihrhs ihrow
    rw [Rule.build_extent_relocate hg r hrhs] at hrule
    rw [List.map_append]
    exact hrule

/-- **Nothing else.** What relocated tokens spell is a relocated value of the tokens. -/
theorem Spells.of_relocate (hg : Monotone g) {row : List Symbol} {us : List Placed}
    {ws : Values row} (h : Spells row us ws) {ts : List Placed}
    (hus : ts.map (Placed.relocate g) = us) :
    ∃ vs, Spells row ts vs ∧ Values.relocate g row vs = ws := by
  induction h generalizing ts with
  | nil =>
    obtain rfl := List.map_eq_nil_iff.mp hus
    exact ⟨(), .nil, rfl⟩
  | token u _ ih =>
    obtain ⟨t, ts, rfl, rfl, hts⟩ := List.map_eq_cons_iff.mp hus
    obtain ⟨vs, hvs, rfl⟩ := ih hts
    exact ⟨(t.token.payload, vs), .token t hvs, rfl⟩
  | rule r _ _ ihrhs ihrow =>
    obtain ⟨ts₁, ts₂, rfl, hts₁, hts₂⟩ := List.map_eq_append_iff.mp hus
    obtain ⟨vs₁, hrhs, rfl⟩ := ihrhs hts₁
    obtain ⟨vs₂, hrow, rfl⟩ := ihrow hts₂
    refine ⟨_, .rule r hrhs hrow, ?_⟩
    rw [Values.relocate, Symbol.relocate, ← Rule.build_extent_relocate hg r hrhs, hts₁]

end

end Scriptling

import Scriptling.Proofs.Syntax.Nodes
import Scriptling.Proofs.Token.Writable

/-!
# Which trees are read from a text

Which trees, up to their spans, does some source spell? Those with literals and names that can be
written, and in which no `else` could go with an earlier `if`: what stands between `then` and
`else` is *closed* (`Program.exists_ofSource_iff_writable`).

One direction is an induction over derivations: all rules respect the conditions. For the other
one trees are written down, with every compound expression in parentheses and every statement in
a list followed by a semicolon (`Expr.tokens`, `Stmt.tokens`). What is written spells the tree
again: the tokens, wherever they stand, have a derivation that builds it.
-/

namespace Scriptling

/-! ## Writable trees -/

/-- A statement that would take a following `else`. -/
def Stmt.isOpen : Stmt → Bool
  | ifThen .. => true
  | ifThenElse _ _ _ no => no.isOpen
  | forTo _ _ _ _ body => body.isOpen
  | assign .. | print .. | block .. | break_ _ | continue_ _ | exit_ _ => false

/-- The node, as far as it depends on itself alone, can be written. -/
def Node.Writable : Node → Prop
  | expr (.int _ n) => 0 ≤ n
  | expr (.str _ s) => '"' ∉ s.toList
  | expr (.var _ x) => IsName x
  | stmt (.assign _ x _) | stmt (.forTo _ x _ _ _) => IsName x
  | stmt (.ifThenElse _ _ yes _) => yes.isOpen = false
  | _ => True

instance : (x : Node) → Decidable x.Writable
  | .expr (.int _ n) => inferInstanceAs (Decidable (0 ≤ n))
  | .expr (.str _ s) => inferInstanceAs (Decidable ('"' ∉ s.toList))
  | .expr (.var _ x) => inferInstanceAs (Decidable (IsName x))
  | .stmt (.assign _ x _) | .stmt (.forTo _ x _ _ _) => inferInstanceAs (Decidable (IsName x))
  | .stmt (.ifThenElse _ _ yes _) => inferInstanceAs (Decidable (yes.isOpen = false))
  | .expr (.bool ..) | .expr (.arith ..) | .expr (.compare ..) | .expr (.logic ..)
  | .expr (.unary ..) | .expr (.length ..) | .expr (.position ..) | .expr (.concatenate ..)
  | .expr (.substring ..) | .expr (.readInt _) | .expr (.readStr _)
  | .stmt (.print ..) | .stmt (.ifThen ..) | .stmt (.block ..) | .stmt (.break_ _)
  | .stmt (.continue_ _) | .stmt (.exit_ _) => isTrue trivial

/-- Every node of the program can be written. -/
def Program.Writable (p : Program) : Prop :=
  ∀ x ∈ p.nodes, x.Writable

instance (p : Program) : Decidable p.Writable :=
  inferInstanceAs (Decidable (∀ x ∈ p.nodes, x.Writable))

/-! ## Places do not matter -/

/-- A node at another place. -/
def Node.relocate (g : Nat → Nat) : Node → Node
  | stmt s => stmt (s.relocate g)
  | expr e => expr (e.relocate g)

theorem Expr.nodes_relocate (g : Nat → Nat) (e : Expr) :
    (e.relocate g).nodes = e.nodes.map (Node.relocate g) := by
  induction e with
  | int | str | bool | var | readInt | readStr => rfl
  | unary _ _ _ ih | length _ _ ih =>
    simp only [Expr.relocate, Expr.nodes, ih]
    rfl
  | arith _ _ _ _ ihl ihr | compare _ _ _ _ ihl ihr | logic _ _ _ _ ihl ihr
  | position _ _ _ ihl ihr | concatenate _ _ _ ihl ihr =>
    simp only [Expr.relocate, Expr.nodes, ihl, ihr, List.map_cons, List.map_append]
    rfl
  | substring _ _ _ _ iht ihb ihn =>
    simp only [Expr.relocate, Expr.nodes, iht, ihb, ihn, List.map_cons, List.map_append]
    rfl

mutual

theorem Stmt.nodes_relocate (g : Nat → Nat) :
    (s : Stmt) → (s.relocate g).nodes = s.nodes.map (Node.relocate g)
  | .assign _ _ e | .print _ e => by
    simp only [Stmt.relocate, Stmt.nodes, e.nodes_relocate, List.map_cons]
    rfl
  | .ifThen _ c yes => by
    simp only [Stmt.relocate, Stmt.nodes, c.nodes_relocate, yes.nodes_relocate, List.map_cons,
      List.map_append]
    rfl
  | .ifThenElse _ c yes no => by
    simp only [Stmt.relocate, Stmt.nodes, c.nodes_relocate, yes.nodes_relocate,
      no.nodes_relocate, List.map_cons, List.map_append]
    rfl
  | .forTo _ _ a b body => by
    simp only [Stmt.relocate, Stmt.nodes, a.nodes_relocate, b.nodes_relocate,
      body.nodes_relocate, List.map_cons, List.map_append]
    rfl
  | .block _ body => by
    simp only [Stmt.relocate, Stmt.nodes, Stmt.nodesAll_relocate g body, List.map_cons]
    rfl
  | .break_ _ | .continue_ _ | .exit_ _ => rfl

theorem Stmt.nodesAll_relocate (g : Nat → Nat) :
    (body : List Stmt) →
      Stmt.nodesAll (Stmt.relocateAll g body) = (Stmt.nodesAll body).map (Node.relocate g)
  | [] => rfl
  | s :: rest => by
    rw [Stmt.relocateAll, Stmt.nodesAll, Stmt.nodesAll, s.nodes_relocate,
      Stmt.nodesAll_relocate g rest, List.map_append]

end

theorem Program.nodes_relocate (g : Nat → Nat) (p : Program) :
    (p.relocate g).nodes = p.nodes.map (Node.relocate g) := by
  simp only [Program.nodes, Program.relocate, List.flatMap_map, Stmt.nodes_relocate,
    List.map_flatMap]

theorem Stmt.isOpen_relocate (g : Nat → Nat) : (s : Stmt) → (s.relocate g).isOpen = s.isOpen
  | .ifThenElse _ _ _ no => no.isOpen_relocate g
  | .forTo _ _ _ _ body => body.isOpen_relocate g
  | .assign .. | .print .. | .ifThen .. | .block .. | .break_ _ | .continue_ _ | .exit_ _ => rfl

theorem Node.writable_relocate_iff (g : Nat → Nat) (x : Node) :
    (x.relocate g).Writable ↔ x.Writable := by
  rcases x with s | e
  · cases s
    case ifThenElse _ _ yes _ => exact iff_of_eq (congrArg (· = false) (yes.isOpen_relocate g))
    all_goals exact Iff.rfl
  · cases e
    all_goals exact Iff.rfl

theorem Program.writable_erase_iff (p : Program) : p.erase.Writable ↔ p.Writable := by
  simp only [Program.Writable, Program.erase, Program.nodes_relocate, List.forall_mem_map,
    Node.writable_relocate_iff]

/-! ## What is read can be written -/

/-- The value is what the grammar calls closed, if the phrase is one that has to be. -/
def Nonterminal.Closed : (n : Nonterminal) → n.Value → Prop
  | closedStmt, s | simpleStmt, s => s.isOpen = false
  | _, _ => True

/-- The value of the symbol can be written. -/
def Symbol.Writable : (s : Symbol) → s.Value → Prop
  | terminal t, v => t.Writable v
  | nonterminal n, v => (∀ x ∈ n.nodes v, x.Writable) ∧ n.Closed v

theorem Expr.writable_withSpan_iff (s : Span) (e : Expr) :
    (Node.expr (e.withSpan s)).Writable ↔ (Node.expr e).Writable := by
  cases e <;> exact Iff.rfl

section

variable {r : Rule} {here : Span} {vs : Values r.rhs}

/-- The node that a rule makes can be written if the parts can. -/
theorem Rule.node_writable (h : Values.All Symbol.Writable r.rhs vs) {x : Node}
    (hx : r.lhs.node? (r.build here vs) = some x) : x.Writable := by
  cases r
  -- phrases that are no nodes
  case program | noStmts | stmtsOnly | stmtsSemi | nextStmt | firstStmt | eq | notEq | lt | gt
      | ltEq | gtEq | strEq | strNotEq | add | sub | mul | div | mod => cases hx
  -- the same phrase at another level
  case anyOpen | anyClosed | simple | expr | orAnd | andCompare | compareSum | sumProduct
      | productUnary | unaryPrimary => exact h.1.1 x (Nonterminal.mem_nodes_of_node? hx)
  all_goals obtain rfl := Option.some.inj hx
  case parens => exact (Expr.writable_withSpan_iff ..).mpr (h.2.1.1 _ (Expr.mem_nodes _))
  -- an `else` only behind a closed statement
  case ifElseClosed | ifElseOpen => exact h.2.2.2.1.2
  case int | str | var | assign => exact h.1
  case forClosed | forOpen => exact h.2.1
  all_goals exact trivial

/-- A rule makes a closed statement of closed ones. -/
theorem Rule.closed_build (h : Values.All Symbol.Writable r.rhs vs) :
    r.lhs.Closed (r.build here vs) := by
  cases r
  case simple => exact h.1.2
  case ifElseClosed => exact h.2.2.2.2.2.1.2
  case forClosed => exact h.2.2.2.2.2.2.2.1.2
  case assign | print | block | break_ | continue_ | exit_ => rfl
  all_goals exact trivial

end

/-- **What is read can be written.** -/
theorem Spells.writable {s : Symbol} {ts : List Placed} {v : s.Value} (h : Spells [s] ts (v, ()))
    (hts : ∀ t ∈ ts, t.token.Writable) : s.Writable v := by
  let P : (s : Symbol) → List Placed → s.Value → Prop :=
    fun s ts v => (∀ t ∈ ts, t.token.Writable) → s.Writable v
  have heach : Values.Each P [s] ts (v, ()) := by
    refine Spells.each (fun t ht => ht t List.mem_cons_self) (fun r ts vs _ heach hts => ?_) h
    have hparts : Values.All Symbol.Writable r.rhs vs :=
      heach.all (fun s us v hus hv => hv (fun t ht => hts t (hus.subset ht)))
    refine ⟨fun x hx => ?_, Rule.closed_build hparts⟩
    obtain hself | hpart := r.mem_nodes_build _ _ hx
    · exact Rule.node_writable hparts hself
    · obtain ⟨s, us, v, hus, hv, hx⟩ := heach.exists_of_mem_nodes hpart
      have hv : s.Writable v := hv (fun t ht => hts t (hus.subset ht))
      cases s with
      | terminal => cases hx
      | nonterminal n => exact hv.1 x hx
  exact heach.single hts

/-! ## Writing trees -/

/-- The mark of an operation. -/
def ArithOp.mark : ArithOp → Mark
  | add => .plus
  | sub => .minus
  | mul => .star
  | div => .slash
  | mod => .percent

/-- The mark of a comparison. -/
def CompareOp.mark : CompareOp → Mark
  | eq => .eq
  | notEq => .ltGt
  | lt => .lt
  | gt => .gt
  | ltEq => .ltEq
  | gtEq => .gtEq
  | strEq => .eqEq
  | strNotEq => .notEq

/-- The word of a connective. -/
def LogicOp.word : LogicOp → Keyword
  | and => .and_
  | or => .or_

/-- How an operator of one operand is written. -/
def UnaryOp.token : UnaryOp → Token
  | neg => .mark .minus
  | not => .word .not_

/-- The word of a truth value. -/
def boolWord : Bool → Keyword
  | true => .true_
  | false => .false_

/-- Tokens in parentheses. -/
def Token.parens (ts : List Token) : List Token :=
  .mark .lparen :: (ts ++ [.mark .rparen])

/-- An expression written down, with parentheses around every operator. -/
def Expr.tokens : Expr → List Token
  | int _ n => [.int n]
  | str _ s => [.str s]
  | bool _ b => [.word (boolWord b)]
  | var _ x => [.name x]
  | arith _ l op r => Token.parens (l.tokens ++ .mark op.mark :: r.tokens)
  | compare _ l op r => Token.parens (l.tokens ++ .mark op.mark :: r.tokens)
  | logic _ l op r => Token.parens (l.tokens ++ .word op.word :: r.tokens)
  | unary _ op e => Token.parens (op.token :: e.tokens)
  | length _ e => .word .length :: Token.parens e.tokens
  | position _ h n =>
    .word .position :: .mark .lparen ::
      (h.tokens ++ .mark .comma :: (n.tokens ++ [.mark .rparen]))
  | concatenate _ l r =>
    .word .concatenate :: .mark .lparen ::
      (l.tokens ++ .mark .comma :: (r.tokens ++ [.mark .rparen]))
  | substring _ t b n =>
    .word .substring :: .mark .lparen ::
      (t.tokens ++ .mark .comma :: (b.tokens ++ .mark .comma :: (n.tokens ++ [.mark .rparen])))
  | readInt _ => .word .readint :: Token.parens []
  | readStr _ => .word .readstr :: Token.parens []

mutual

/-- A statement written down. -/
def Stmt.tokens : Stmt → List Token
  | .assign _ x e => .name x :: .mark .assign :: e.tokens
  | .print _ e => .word .print :: Token.parens e.tokens
  | .ifThen _ c yes => .word .if_ :: (c.tokens ++ .word .then_ :: yes.tokens)
  | .ifThenElse _ c yes no =>
    .word .if_ :: (c.tokens ++ .word .then_ :: (yes.tokens ++ .word .else_ :: no.tokens))
  | .forTo _ x a b body =>
    .word .for_ :: .name x :: .mark .assign ::
      (a.tokens ++ .word .to_ :: (b.tokens ++ .word .do_ :: body.tokens))
  | .block _ body => .word .begin_ :: (Stmt.tokensAll body ++ [.word .end_])
  | .break_ _ => [.word .break_]
  | .continue_ _ => [.word .continue_]
  | .exit_ _ => [.word .exit_]

/-- Statements written down, each with a semicolon behind it. -/
def Stmt.tokensAll : List Stmt → List Token
  | [] => []
  | s :: rest => s.tokens ++ .mark .semi :: Stmt.tokensAll rest

end

/-- A token without a place. -/
def Token.detached (t : Token) : Placed :=
  ⟨t, ⟨0, 0⟩⟩

/-- The tokens can be written, and without their places they spell the values. -/
structure Writes (row : List Symbol) (ts : List Token) (vs : Values row) : Prop where
  /-- they spell the values -/
  spells : Spells row (ts.map Token.detached) vs
  /-- they can be written -/
  writable : ∀ t ∈ ts, t.Writable

namespace Writes

variable {row : List Symbol} {vs : Values row} {ts us : List Token} {e : Expr}

theorem nil : Writes [] [] () :=
  ⟨.nil, by simp⟩

theorem token {t : Token} (ht : t.Writable) (h : Writes row us vs) :
    Writes (.terminal t.terminal :: row) (t :: us) (t.payload, vs) :=
  ⟨.token t.detached h.spells, List.forall_mem_cons.mpr ⟨ht, h.writable⟩⟩

theorem word (k : Keyword) (h : Writes row us vs) :
    Writes (.terminal (.word k) :: row) (.word k :: us) ((), vs) :=
  have hk : (Token.word k).Writable := trivial
  token hk h

theorem mark (m : Mark) (h : Writes row us vs) :
    Writes (.terminal (.mark m) :: row) (.mark m :: us) ((), vs) :=
  have hm : (Token.mark m).Writable := trivial
  token hm h

theorem cons {s : Symbol} {v : s.Value} (hs : Writes [s] ts (v, ())) (h : Writes row us vs) :
    Writes (s :: row) (ts ++ us) (v, vs) := by
  refine ⟨?_, List.forall_mem_append.mpr ⟨hs.writable, h.writable⟩⟩
  rw [List.map_append]
  exact hs.spells.cons h.spells

theorem reduce (r : Rule) {vs : Values r.rhs} (h : Writes r.rhs ts vs) :
    Writes [.nonterminal r.lhs] ts (r.build ⟨0, 0⟩ vs, ()) := by
  have hplace : (Placed.extent (ts.map Token.detached)).span = ⟨0, 0⟩ := by
    rw [Placed.extent, List.head?_map, List.getLast?_map]
    cases ts.head? <;> cases ts.getLast? <;> rfl
  have hspells := h.spells.reduce r
  rw [hplace] at hspells
  exact ⟨hspells, h.writable⟩

/-! An indivisible expression at all levels. -/

section

variable (h : Writes [.nonterminal .primary] ts (e, ()))
include h

theorem unary : Writes [.nonterminal .unaryExpr] ts (e, ()) := h.reduce .unaryPrimary

theorem product : Writes [.nonterminal .productExpr] ts (e, ()) := h.unary.reduce .productUnary

theorem sum : Writes [.nonterminal .sumExpr] ts (e, ()) := h.product.reduce .sumProduct

theorem compare : Writes [.nonterminal .compareExpr] ts (e, ()) := h.sum.reduce .compareSum

theorem and : Writes [.nonterminal .andExpr] ts (e, ()) := h.compare.reduce .andCompare

theorem or : Writes [.nonterminal .orExpr] ts (e, ()) := h.and.reduce .orAnd

theorem expr : Writes [.nonterminal .expr] ts (e, ()) := h.or.reduce .expr

end

/-- An expression of any level in parentheses. -/
theorem parens {n : Nonterminal} {v : n.Value} (h : Writes [.nonterminal n] ts (v, ()))
    (hv : n.node? v = some (.expr e)) :
    Writes [.nonterminal .primary] (Token.parens ts) (e.withSpan ⟨0, 0⟩, ()) := by
  have hexpr : Writes [.nonterminal .expr] ts (e, ()) := ⟨h.spells.node_self hv, h.writable⟩
  exact reduce .parens (mark .lparen (hexpr.cons (mark .rparen nil)))

end Writes

section

variable {l r e : Expr} {ts us : List Token}

theorem Expr.writes_arith (op : ArithOp) (hl : Writes [.nonterminal .primary] ts (l, ()))
    (hr : Writes [.nonterminal .primary] us (r, ())) :
    Writes [.nonterminal .primary] (Token.parens (ts ++ .mark op.mark :: us))
      (.arith ⟨0, 0⟩ l op r, ()) := by
  have hsum (hop : Writes [.nonterminal .sumOp] [.mark op.mark] (op, ())) :=
    (Writes.reduce .sum (hl.sum.cons (hop.cons hr.product))).parens rfl
  have hproduct (hop : Writes [.nonterminal .productOp] [.mark op.mark] (op, ())) :=
    (Writes.reduce .product (hl.product.cons (hop.cons hr.unary))).parens rfl
  cases op with
  | add => exact hsum (.reduce .add (.mark .plus .nil))
  | sub => exact hsum (.reduce .sub (.mark .minus .nil))
  | mul => exact hproduct (.reduce .mul (.mark .star .nil))
  | div => exact hproduct (.reduce .div (.mark .slash .nil))
  | mod => exact hproduct (.reduce .mod (.mark .percent .nil))

theorem CompareOp.writes (op : CompareOp) :
    Writes [.nonterminal .compareOp] [.mark op.mark] (op, ()) := by
  cases op with
  | eq => exact .reduce .eq (.mark .eq .nil)
  | notEq => exact .reduce .notEq (.mark .ltGt .nil)
  | lt => exact .reduce .lt (.mark .lt .nil)
  | gt => exact .reduce .gt (.mark .gt .nil)
  | ltEq => exact .reduce .ltEq (.mark .ltEq .nil)
  | gtEq => exact .reduce .gtEq (.mark .gtEq .nil)
  | strEq => exact .reduce .strEq (.mark .eqEq .nil)
  | strNotEq => exact .reduce .strNotEq (.mark .notEq .nil)

theorem Expr.writes_logic (op : LogicOp) (hl : Writes [.nonterminal .primary] ts (l, ()))
    (hr : Writes [.nonterminal .primary] us (r, ())) :
    Writes [.nonterminal .primary] (Token.parens (ts ++ .word op.word :: us))
      (.logic ⟨0, 0⟩ l op r, ()) := by
  cases op with
  | and => exact (Writes.reduce .and_ (hl.and.cons (.word .and_ hr.compare))).parens rfl
  | or => exact (Writes.reduce .or_ (hl.or.cons (.word .or_ hr.and))).parens rfl

theorem Expr.writes_unary (op : UnaryOp) (he : Writes [.nonterminal .primary] ts (e, ())) :
    Writes [.nonterminal .primary] (Token.parens (op.token :: ts)) (.unary ⟨0, 0⟩ op e, ()) := by
  cases op with
  | neg => exact (Writes.reduce .neg (.mark .minus he.unary)).parens rfl
  | not => exact (Writes.reduce .not_ (.word .not_ he.unary)).parens rfl

end

/-- The tokens of an expression spell it. -/
theorem Expr.writes (e : Expr) (h : ∀ x ∈ e.nodes, x.Writable) :
    Writes [.nonterminal .primary] e.tokens (e.erase, ()) := by
  have hclose : Writes [.terminal (.mark .rparen)] [.mark .rparen] ((), ()) := .mark .rparen .nil
  induction e with
  | int s n =>
    have hn : (Token.int n).Writable := h _ (Expr.mem_nodes _)
    exact .reduce .int (.token hn .nil)
  | str s t =>
    have ht : (Token.str t).Writable := h _ (Expr.mem_nodes _)
    exact .reduce .str (.token ht .nil)
  | bool s b =>
    cases b with
    | true => exact .reduce .true_ (.word .true_ .nil)
    | false => exact .reduce .false_ (.word .false_ .nil)
  | var s x =>
    have hx : (Token.name x).Writable := h _ (Expr.mem_nodes _)
    exact .reduce .var (.token hx .nil)
  | arith s l op r ihl ihr =>
    obtain ⟨hl, hr⟩ := List.forall_mem_append.mp (List.forall_mem_cons.mp h).2
    exact Expr.writes_arith op (ihl hl) (ihr hr)
  | compare s l op r ihl ihr =>
    obtain ⟨hl, hr⟩ := List.forall_mem_append.mp (List.forall_mem_cons.mp h).2
    exact (Writes.reduce .compare ((ihl hl).sum.cons (op.writes.cons (ihr hr).sum))).parens rfl
  | logic s l op r ihl ihr =>
    obtain ⟨hl, hr⟩ := List.forall_mem_append.mp (List.forall_mem_cons.mp h).2
    exact Expr.writes_logic op (ihl hl) (ihr hr)
  | unary s op e ih => exact Expr.writes_unary op (ih (List.forall_mem_cons.mp h).2)
  | length s e ih =>
    have he := ih (List.forall_mem_cons.mp h).2
    exact .reduce .length (.word .length (.mark .lparen (he.expr.cons hclose)))
  | position s a b iha ihb =>
    obtain ⟨ha, hb⟩ := List.forall_mem_append.mp (List.forall_mem_cons.mp h).2
    have hargs := (iha ha).expr.cons (.mark .comma ((ihb hb).expr.cons hclose))
    exact .reduce .position (.word .position (.mark .lparen hargs))
  | concatenate s l r ihl ihr =>
    obtain ⟨hl, hr⟩ := List.forall_mem_append.mp (List.forall_mem_cons.mp h).2
    have hargs := (ihl hl).expr.cons (.mark .comma ((ihr hr).expr.cons hclose))
    exact .reduce .concatenate (.word .concatenate (.mark .lparen hargs))
  | substring s t b n iht ihb ihn =>
    obtain ⟨htb, hn⟩ := List.forall_mem_append.mp (List.forall_mem_cons.mp h).2
    obtain ⟨ht, hb⟩ := List.forall_mem_append.mp htb
    have hargs := (ihb hb).expr.cons (.mark .comma ((ihn hn).expr.cons hclose))
    exact .reduce .substring
      (.word .substring (.mark .lparen ((iht ht).expr.cons (.mark .comma hargs))))
  | readInt s => exact .reduce .readInt (.word .readint (.mark .lparen hclose))
  | readStr s => exact .reduce .readStr (.word .readstr (.mark .lparen hclose))

/-- The tokens of the statement spell it: as a closed one, or as an open one. -/
structure Stmt.Written (s : Stmt) : Prop where
  /-- a closed statement is spelled as such -/
  closed : s.isOpen = false → Writes [.nonterminal .closedStmt] s.tokens (s.erase, ())
  /-- and an open one likewise -/
  opened : s.isOpen = true → Writes [.nonterminal .openStmt] s.tokens (s.erase, ())

namespace Stmt

theorem Written.stmt {s : Stmt} (h : s.Written) :
    Writes [.nonterminal .stmt] s.tokens (s.erase, ()) := by
  rcases hopen : s.isOpen with _ | _
  · exact (h.closed hopen).reduce .anyClosed
  · exact (h.opened hopen).reduce .anyOpen

/-- A simple statement is closed. -/
theorem Written.of_simple {s : Stmt} (hclosed : s.isOpen = false)
    (h : Writes [.nonterminal .simpleStmt] s.tokens (s.erase, ())) : s.Written := by
  refine ⟨fun _ => h.reduce .simple, fun hopen => ?_⟩
  rw [hclosed] at hopen
  cases hopen

/-- Statements in a list, behind the first one. -/
theorem writes_stmtList_of_stmts {ts : List Token} {reversed : List Stmt}
    (h : Writes [.nonterminal .stmts] ts (reversed, ())) {rest : List Stmt}
    (hrest : ∀ s ∈ rest, s.Written) :
    Writes [.nonterminal .stmtList] (ts ++ .mark .semi :: tokensAll rest)
      (reversed.reverse ++ rest.map Stmt.erase, ()) := by
  induction rest generalizing ts reversed with
  | nil =>
    rw [List.map_nil, List.append_nil]
    exact .reduce .stmtsSemi (h.cons (.mark .semi .nil))
  | cons s rest ih =>
    obtain ⟨hs, hrest⟩ := List.forall_mem_cons.mp hrest
    have hmore := ih (Writes.reduce .nextStmt (h.cons (.mark .semi hs.stmt))) hrest
    simpa [tokensAll, Rule.build] using hmore

/-- Statements in a list. -/
theorem writes_stmtList {body : List Stmt} (h : ∀ s ∈ body, s.Written) :
    Writes [.nonterminal .stmtList] (tokensAll body) (body.map Stmt.erase, ()) := by
  cases body with
  | nil => exact .reduce .noStmts .nil
  | cons s rest =>
    obtain ⟨hs, hrest⟩ := List.forall_mem_cons.mp h
    exact writes_stmtList_of_stmts (hs.stmt.reduce .firstStmt) hrest

/-- A loop is open or closed as its body is. -/
theorem Written.forTo {span : Span} {x : String} {a b : Expr} {body : Stmt} (hx : IsName x)
    (ha : Writes [.nonterminal .expr] a.tokens (a.erase, ()))
    (hb : Writes [.nonterminal .expr] b.tokens (b.erase, ())) (hbody : body.Written) :
    (Stmt.forTo span x a b body).Written := by
  have hname : (Token.name x).Writable := hx
  constructor
  · intro hclosed
    have hto := ha.cons (.word .to_ (hb.cons (.word .do_ (hbody.closed hclosed))))
    exact .reduce .forClosed (.word .for_ (.token hname (.mark .assign hto)))
  · intro hopen
    have hto := ha.cons (.word .to_ (hb.cons (.word .do_ (hbody.opened hopen))))
    exact .reduce .forOpen (.word .for_ (.token hname (.mark .assign hto)))

/-- A choice with a closed first branch is open or closed as its second branch is. -/
theorem Written.ifThenElse {span : Span} {c : Expr} {yes no : Stmt}
    (hc : Writes [.nonterminal .expr] c.tokens (c.erase, ())) (hyes : yes.Written)
    (hclosed : yes.isOpen = false) (hno : no.Written) :
    (Stmt.ifThenElse span c yes no).Written := by
  constructor
  · intro hno'
    have helse := (hyes.closed hclosed).cons (.word .else_ (hno.closed hno'))
    exact .reduce .ifElseClosed (.word .if_ (hc.cons (.word .then_ helse)))
  · intro hno'
    have helse := (hyes.closed hclosed).cons (.word .else_ (hno.opened hno'))
    exact .reduce .ifElseOpen (.word .if_ (hc.cons (.word .then_ helse)))

mutual

/-- The tokens of a statement spell it. -/
theorem written : (s : Stmt) → (∀ x ∈ s.nodes, x.Writable) → s.Written
  | .assign _ x e, h => by
    obtain ⟨hself, he⟩ := List.forall_mem_cons.mp h
    have hx : (Token.name x).Writable := hself
    exact .of_simple rfl (.reduce .assign (.token hx (.mark .assign (e.writes he).expr)))
  | .print _ e, h => by
    have he := e.writes (List.forall_mem_cons.mp h).2
    have hparens := Writes.mark .lparen (he.expr.cons (.mark .rparen .nil))
    exact .of_simple rfl (.reduce .print (.word .print hparens))
  | .ifThen _ c yes, h => by
    obtain ⟨hc, hyes⟩ := List.forall_mem_append.mp (List.forall_mem_cons.mp h).2
    have hthen := (c.writes hc).expr.cons (.word .then_ (written yes hyes).stmt)
    refine ⟨fun hclosed => ?_, fun _ => .reduce .ifThen (.word .if_ hthen)⟩
    cases hclosed
  | .ifThenElse _ c yes no, h => by
    obtain ⟨hclosed, h⟩ := List.forall_mem_cons.mp h
    obtain ⟨h, hno⟩ := List.forall_mem_append.mp h
    obtain ⟨hc, hyes⟩ := List.forall_mem_append.mp h
    exact .ifThenElse (c.writes hc).expr (written yes hyes) hclosed (written no hno)
  | .forTo _ x a b body, h => by
    obtain ⟨hx, h⟩ := List.forall_mem_cons.mp h
    obtain ⟨h, hbody⟩ := List.forall_mem_append.mp h
    obtain ⟨ha, hb⟩ := List.forall_mem_append.mp h
    exact .forTo hx (a.writes ha).expr (b.writes hb).expr (written body hbody)
  | .block span body, h => by
    have hbody := writes_stmtList (writtenAll body (List.forall_mem_cons.mp h).2)
    have hblock := Writes.reduce .block (.word .begin_ (hbody.cons (.word .end_ .nil)))
    have herase : (Stmt.block span body).erase = .block ⟨0, 0⟩ (body.map Stmt.erase) :=
      congrArg (Stmt.block ⟨0, 0⟩) (Stmt.relocateAll_eq_map _ body)
    refine .of_simple rfl ?_
    rw [herase]
    exact hblock
  | .break_ _, _ => .of_simple rfl (.reduce .break_ (.word .break_ .nil))
  | .continue_ _, _ => .of_simple rfl (.reduce .continue_ (.word .continue_ .nil))
  | .exit_ _, _ => .of_simple rfl (.reduce .exit_ (.word .exit_ .nil))

theorem writtenAll : (body : List Stmt) → (∀ x ∈ nodesAll body, x.Writable) →
    ∀ s ∈ body, s.Written
  | [], _ => by simp
  | s :: rest, h => by
    obtain ⟨hs, hrest⟩ := List.forall_mem_append.mp h
    exact List.forall_mem_cons.mpr ⟨written s hs, writtenAll rest hrest⟩

end

end Stmt

/-- The tokens of a program that can be written spell it. -/
theorem Program.writes {p : Program} (h : p.Writable) :
    Writes [.nonterminal .program] (Stmt.tokensAll p.body) (p.erase, ()) := by
  have hbody := Stmt.writtenAll p.body (by rwa [Stmt.nodesAll_eq_flatMap])
  exact (Stmt.writes_stmtList hbody).reduce .program

/-- **The image of the parser.** Some source is read as the program, up to places, exactly if
the program can be written: its literals are not negative, its strings are free of quotes, its
names are names, and between `then` and `else` it has closed statements only. -/
theorem Program.exists_ofSource_iff_writable (p : Program) :
    (∃ (source : String) (q : Program), Program.ofSource source = .ok q ∧ q.erase = p.erase) ↔
      p.Writable := by
  constructor
  · rintro ⟨source, q, hsource, herase⟩
    obtain ⟨ts, hscans, hq⟩ := Program.ofSource_eq_ok_iff_scans.mp hsource
    rw [← Program.writable_erase_iff, ← herase, Program.writable_erase_iff]
    exact (Spells.writable hq hscans.writable).1
  · intro hp
    have hwrites := Program.writes hp
    obtain ⟨us, hscans, hus⟩ := Scans.of_render hwrites.writable 0
    have hdetached : us.map (Placed.relocate fun _ => 0) =
        (Stmt.tokensAll p.body).map Token.detached := by
      rw [← hus, List.map_map]
      rfl
    obtain ⟨⟨q, ⟨⟩⟩, hq, herase⟩ := hwrites.spells.of_relocate monotone_const hdetached
    refine ⟨String.ofList (Token.render (Stmt.tokensAll p.body)), q, ?_, congrArg Prod.fst herase⟩
    rw [Program.ofSource_eq_ok_iff_scans, String.toList_ofList]
    exact ⟨us, hscans, hq⟩

/-- An `else` cannot be meant for the outer one of two conditionals, -/
example : ¬ Program.Writable ⟨[.ifThenElse default (.bool default true)
    (.ifThen default (.bool default false) (.break_ default)) (.exit_ default)]⟩ := by
  decide

/-- unless the inner one is in a block. -/
example : Program.Writable ⟨[.ifThenElse default (.bool default true)
    (.block default [.ifThen default (.bool default false) (.break_ default)])
    (.exit_ default)]⟩ := by
  decide

end Scriptling

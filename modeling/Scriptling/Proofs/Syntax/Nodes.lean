import Mathlib.Data.List.Infix
import Scriptling.Proofs.Grammar.Lookahead

/-!
# The nodes of a tree

All statements and expressions of a tree, at any depth, are its *nodes*. A rule adds at most
one node to those of its parts (`Rule.mem_nodes_build`): the phrase that it makes.

`Spells.each` is the induction over derivations in terms of phrases: what holds of tokens, and
of a phrase if it holds of its parts, holds of all phrases. With it every node of a derived tree
is found again among the tokens: a part of the row spells it, by itself, as a statement or as
an expression (`Spells.node`).
-/

namespace Scriptling

/-- A statement or an expression in a tree. -/
inductive Node
  | stmt (s : Stmt)
  | expr (e : Expr)

/-- Where the node stands. -/
def Node.span : Node → Span
  | stmt s => s.span
  | expr e => e.span

/-- The nodes of an expression. -/
def Expr.nodes (e : Expr) : List Node :=
  .expr e ::
    match e with
    | int .. | str .. | bool .. | var .. | readInt _ | readStr _ => []
    | unary _ _ a | length _ a => a.nodes
    | arith _ a _ b | compare _ a _ b | logic _ a _ b | position _ a b | concatenate _ a b =>
      a.nodes ++ b.nodes
    | substring _ a b c => a.nodes ++ b.nodes ++ c.nodes

mutual

/-- The nodes of a statement. -/
def Stmt.nodes (s : Stmt) : List Node :=
  .stmt s ::
    match s with
    | .assign _ _ e | .print _ e => e.nodes
    | .ifThen _ c yes => c.nodes ++ yes.nodes
    | .ifThenElse _ c yes no => c.nodes ++ yes.nodes ++ no.nodes
    | .forTo _ _ a b body => a.nodes ++ b.nodes ++ body.nodes
    | .block _ body => Stmt.nodesAll body
    | .break_ _ | .continue_ _ | .exit_ _ => []

/-- The nodes of statements. -/
def Stmt.nodesAll : List Stmt → List Node
  | [] => []
  | s :: rest => s.nodes ++ Stmt.nodesAll rest

end

theorem Stmt.nodesAll_eq_flatMap (body : List Stmt) :
    Stmt.nodesAll body = body.flatMap Stmt.nodes := by
  induction body with
  | nil => rfl
  | cons s rest ih => rw [Stmt.nodesAll, ih, List.flatMap_cons]

/-- The nodes of a program. -/
def Program.nodes (p : Program) : List Node :=
  p.body.flatMap Stmt.nodes

/-- The nodes of the tree below a node, itself included. -/
def Node.nodes : Node → List Node
  | stmt s => s.nodes
  | expr e => e.nodes

theorem Expr.mem_nodes (e : Expr) : .expr e ∈ e.nodes := by
  cases e <;> exact List.mem_cons_self

theorem Stmt.mem_nodes (s : Stmt) : .stmt s ∈ s.nodes := by
  cases s <;> exact List.mem_cons_self

/-- Another span changes the node itself and no node inside. -/
theorem Expr.nodes_withSpan (s : Span) (e : Expr) :
    (e.withSpan s).nodes = .expr (e.withSpan s) :: e.nodes.tail := by
  cases e <;> rfl

/-! ## Nodes and rules -/

/-- The nodes of the value of a phrase. -/
def Nonterminal.nodes : (n : Nonterminal) → n.Value → List Node
  | program, p => p.nodes
  | stmtList, body | stmts, body => body.flatMap Stmt.nodes
  | stmt, s | closedStmt, s | openStmt, s | simpleStmt, s => s.nodes
  | expr, e | orExpr, e | andExpr, e | compareExpr, e | sumExpr, e | productExpr, e
  | unaryExpr, e | primary, e => e.nodes
  | compareOp, _ | sumOp, _ | productOp, _ => []

/-- The value of a phrase as a node, if it is one. -/
def Nonterminal.node? : (n : Nonterminal) → n.Value → Option Node
  | stmt, s | closedStmt, s | openStmt, s | simpleStmt, s => some (.stmt s)
  | expr, e | orExpr, e | andExpr, e | compareExpr, e | sumExpr, e | productExpr, e
  | unaryExpr, e | primary, e => some (.expr e)
  | program, _ | stmtList, _ | stmts, _ | compareOp, _ | sumOp, _ | productOp, _ => none

theorem Nonterminal.mem_nodes_of_node? {n : Nonterminal} {v : n.Value} {x : Node}
    (h : n.node? v = some x) : x ∈ n.nodes v := by
  cases n
  case program | stmtList | stmts | compareOp | sumOp | productOp => cases h
  all_goals obtain rfl := Option.some.inj h
  case stmt | closedStmt | openStmt | simpleStmt => exact Stmt.mem_nodes v
  all_goals exact Expr.mem_nodes v

/-- The nodes of the value of a symbol. -/
def Symbol.nodes : (s : Symbol) → s.Value → List Node
  | terminal _, _ => []
  | nonterminal n, v => n.nodes v

/-- The nodes of the values of a row. -/
def Values.nodes : (row : List Symbol) → Values row → List Node
  | [], _ => []
  | s :: row, (v, vs) => s.nodes v ++ Values.nodes row vs

/-- **A rule adds one node at most.** -/
theorem Rule.mem_nodes_build (r : Rule) (here : Span) (vs : Values r.rhs) {x : Node}
    (hx : x ∈ r.lhs.nodes (r.build here vs)) :
    r.lhs.node? (r.build here vs) = some x ∨ x ∈ Values.nodes r.rhs vs := by
  cases r
  case parens =>
    -- the node inside the parentheses is gone, but those below it are not
    obtain ⟨_, e, _, ⟨⟩⟩ := vs
    have hx : x ∈ (e.withSpan here).nodes := hx
    rw [Expr.nodes_withSpan] at hx
    obtain rfl | hx := List.mem_cons.mp hx
    · exact Or.inl rfl
    · have he : x ∈ e.nodes ++ [] := List.mem_append_left _ (List.mem_of_mem_tail hx)
      exact Or.inr he
  all_goals
    simp only [Rule.build, Nonterminal.nodes, Nonterminal.node?, Values.nodes, Symbol.nodes,
      Stmt.nodes, Stmt.nodesAll_eq_flatMap, Expr.nodes, Program.nodes, List.mem_cons,
      List.mem_append, List.flatMap_cons, List.flatMap_nil, List.mem_flatMap, List.mem_reverse,
      List.not_mem_nil, false_or, or_false, or_assoc, Option.some.injEq, reduceCtorEq] at hx ⊢
  case nextStmt => exact hx.symm
  all_goals tauto

/-! ## Phrases of a derivation -/

/-- The tokens are divided along the row so that the property holds of each symbol with its
share of the tokens and its value. -/
def Values.Each (P : (s : Symbol) → List Placed → s.Value → Prop) :
    (row : List Symbol) → List Placed → Values row → Prop
  | [], ts, _ => ts = []
  | s :: row, ts, (v, vs) => ∃ us ws, ts = us ++ ws ∧ P s us v ∧ Values.Each P row ws vs

/-- The property holds of each symbol of the row with its value. -/
def Values.All (Q : (s : Symbol) → s.Value → Prop) : (row : List Symbol) → Values row → Prop
  | [], _ => True
  | s :: row, (v, vs) => Q s v ∧ Values.All Q row vs

section

variable {P : (s : Symbol) → List Placed → s.Value → Prop}

/-- **Induction over phrases.** What holds of every token, and of a phrase whenever it holds
of the parts that a rule makes it of, holds of all phrases. -/
theorem Spells.each
    (htoken : ∀ t : Placed, P (.terminal t.token.terminal) [t] t.token.payload)
    (hrule : ∀ (r : Rule) (ts : List Placed) (vs : Values r.rhs), Spells r.rhs ts vs →
      Values.Each P r.rhs ts vs →
      P (.nonterminal r.lhs) ts (r.build (Placed.extent ts).span vs))
    {row : List Symbol} {ts : List Placed} {vs : Values row} (h : Spells row ts vs) :
    Values.Each P row ts vs := by
  induction h with
  | nil => rfl
  | token t _ ih => exact ⟨[t], _, rfl, htoken t, ih⟩
  | rule r hrhs _ ihrhs ihrow => exact ⟨_, _, rfl, hrule r _ _ hrhs ihrhs, ihrow⟩

/-- What holds of the only symbol of a row holds of it with all tokens. -/
theorem Values.Each.single {s : Symbol} {ts : List Placed} {v : s.Value}
    (h : Values.Each P [s] ts (v, ())) : P s ts v := by
  obtain ⟨us, ws, rfl, hv, rfl⟩ := h
  rwa [List.append_nil]

/-- What a property with a share of the tokens implies. -/
theorem Values.Each.all {Q : (s : Symbol) → s.Value → Prop} {row : List Symbol}
    {ts : List Placed} {vs : Values row} (h : Values.Each P row ts vs)
    (hQ : ∀ (s : Symbol) (us : List Placed) (v : s.Value), us <:+: ts → P s us v → Q s v) :
    Values.All Q row vs := by
  induction row generalizing ts with
  | nil => trivial
  | cons s row ih =>
    obtain ⟨v, vs⟩ := vs
    obtain ⟨us, ws, rfl, hv, hvs⟩ := h
    refine ⟨hQ s us v (List.prefix_append us ws).isInfix hv, ih hvs (fun s' us' v' hus' => ?_)⟩
    exact hQ s' us' v' (hus'.trans (List.suffix_append us ws).isInfix)

/-- A node of a row is one of a symbol in the row. -/
theorem Values.Each.exists_of_mem_nodes {row : List Symbol} {ts : List Placed}
    {vs : Values row} (h : Values.Each P row ts vs) {x : Node} (hx : x ∈ Values.nodes row vs) :
    ∃ (s : Symbol) (us : List Placed) (v : s.Value), us <:+: ts ∧ P s us v ∧ x ∈ s.nodes v := by
  induction row generalizing ts with
  | nil => cases hx
  | cons s row ih =>
    obtain ⟨v, vs⟩ := vs
    obtain ⟨us, ws, rfl, hv, hvs⟩ := h
    obtain hx | hx := List.mem_append.mp hx
    · exact ⟨s, us, v, List.infix_append' [] us ws, hv, hx⟩
    · obtain ⟨s', us', v', hinfix, hv', hx'⟩ := ih hvs hx
      exact ⟨s', us', v', hinfix.trans (List.suffix_append us ws).isInfix, hv', hx'⟩

end

/-! ## Where nodes come from -/

/-- The tokens, by themselves, spell the node: as a statement, or as an expression. -/
def Node.SpelledBy (ts : List Placed) : Node → Prop
  | stmt s => Spells [.nonterminal .stmt] ts (s, ())
  | expr e => Spells [.nonterminal .expr] ts (e, ())

namespace Spells

section

variable {ts : List Placed} {e : Expr}

theorem expr_of_compare (h : Spells [.nonterminal .compareExpr] ts (e, ())) :
    Spells [.nonterminal .expr] ts (e, ()) :=
  ((h.reduce .andCompare).reduce .orAnd).reduce .expr

theorem expr_of_product (h : Spells [.nonterminal .productExpr] ts (e, ())) :
    Spells [.nonterminal .expr] ts (e, ()) :=
  expr_of_compare ((h.reduce .sumProduct).reduce .compareSum)

theorem expr_of_primary (h : Spells [.nonterminal .primary] ts (e, ())) :
    Spells [.nonterminal .expr] ts (e, ()) :=
  expr_of_product ((h.reduce .unaryPrimary).reduce .productUnary)

end

/-- A phrase that is a node is spelled by its tokens, whatever its level of binding and
whether it is open or closed. -/
theorem node_self {n : Nonterminal} {ts : List Placed} {v : n.Value} {x : Node}
    (h : Spells [.nonterminal n] ts (v, ())) (hx : n.node? v = some x) : x.SpelledBy ts := by
  cases n
  case program | stmtList | stmts | compareOp | sumOp | productOp => cases hx
  all_goals obtain rfl := Option.some.inj hx
  case stmt | expr => exact h
  case closedStmt => exact h.reduce .anyClosed
  case openStmt => exact h.reduce .anyOpen
  case simpleStmt => exact (h.reduce .simple).reduce .anyClosed
  case orExpr => exact h.reduce .expr
  case andExpr => exact (h.reduce .orAnd).reduce .expr
  case compareExpr => exact expr_of_compare h
  case sumExpr => exact expr_of_compare (h.reduce .compareSum)
  case productExpr => exact expr_of_product h
  case unaryExpr => exact expr_of_product (h.reduce .productUnary)
  case primary => exact expr_of_primary h

/-- **Nodes are phrases.** Each node of a derived value is spelled by a part of the tokens. -/
theorem node {s : Symbol} {ts : List Placed} {v : s.Value} (h : Spells [s] ts (v, ()))
    {x : Node} (hx : x ∈ s.nodes v) : ∃ us, us <:+: ts ∧ x.SpelledBy us := by
  let P : (s : Symbol) → List Placed → s.Value → Prop :=
    fun s ts v => ∀ x ∈ s.nodes v, ∃ us, us <:+: ts ∧ x.SpelledBy us
  have heach : Values.Each P [s] ts (v, ()) := by
    refine Spells.each (fun t x hx => ?_) (fun r ts vs hrhs heach x hx => ?_) h
    · cases hx
    · -- the node is the phrase itself, or one of its parts has it
      obtain hself | hpart := r.mem_nodes_build _ _ hx
      · exact ⟨ts, List.infix_rfl, node_self (hrhs.reduce r) hself⟩
      · obtain ⟨s, us, v, hus, hv, hx⟩ := heach.exists_of_mem_nodes hpart
        obtain ⟨ws, hws, hspelled⟩ := hv x hx
        exact ⟨ws, hws.trans hus, hspelled⟩
  exact heach.single x hx

end Spells

theorem Node.SpelledBy.node {x y : Node} {ts : List Placed} (h : x.SpelledBy ts)
    (hy : y ∈ x.nodes) : ∃ us, us <:+: ts ∧ y.SpelledBy us := by
  cases x with
  | stmt s => exact Spells.node h hy
  | expr e => exact Spells.node h hy

end Scriptling

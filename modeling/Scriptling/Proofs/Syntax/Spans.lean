import Mathlib.Data.String.Basic
import Scriptling.Proofs.Syntax.Nodes
import Scriptling.Proofs.Token.Scan

/-!
# Spans are faithful

The span of a node is that of its text. Cut out of the source at its span, a statement is a
program by itself, with that statement as its only one and all offsets moved; an expression
is one that can be printed (`Program.ofSource_span_fidelity`).

Spans come about in three ways: from the tokens of a phrase, as the hull of two operands, and
from parentheses, which put the expression inside at their own place. In a source, where
tokens follow one another in order, all three give the place of the tokens that spell the node
(`Node.SpelledBy.extent_eq`). The text there is a fragment, and of a derivation nothing changes when
its tokens are moved.
-/

namespace Scriptling

open String (utf8Len utf8Len_append utf8Len_cons)

/-! ## Places of tokens in order -/

/-- The span lies within the other one. -/
def Span.Within (a b : Span) : Prop :=
  b.start ≤ a.start ∧ a.stop ≤ b.stop

namespace Placed

variable {ts us : List Placed} {a b : Span}

/-- The place of tokens starts with one of them and stops with one of them. -/
theorem exists_of_extent (ha : extent ts = some a) :
    (∃ t ∈ ts, t.span.start = a.start) ∧ ∃ t ∈ ts, t.span.stop = a.stop := by
  unfold extent at ha
  split at ha
  · next first last hfirst hlast =>
    obtain rfl := Option.some.inj ha
    exact ⟨⟨first, List.mem_of_mem_head? hfirst, rfl⟩, last, List.mem_of_getLast? hlast, rfl⟩
  · cases ha

theorem exists_extent (hts : ts ≠ []) : ∃ a, extent ts = some a := by
  rw [extent, List.head?_eq_some_head hts, List.getLast?_eq_some_getLast hts]
  exact ⟨_, rfl⟩

namespace Ordered

theorem of_sublist (h : Ordered ts) (hus : us.Sublist ts) : Ordered us :=
  ⟨fun t ht => h.start_lt_stop t (hus.subset ht), h.pairwise.sublist hus⟩

/-- Each token lies within the place of all. -/
theorem token_within (h : Ordered ts) (ha : extent ts = some a) : ∀ t ∈ ts, t.span.Within a := by
  induction ts generalizing a with
  | nil => simp
  | cons t ts ih =>
    have hpos := h.start_lt_stop t List.mem_cons_self
    have hlater := (List.pairwise_cons.mp h.pairwise).1
    rw [extent_cons] at ha
    rcases ts with _ | ⟨u, us⟩
    · obtain rfl : t.span = a := Option.some.inj ha
      simp [Span.Within]
    · obtain ⟨b, hb⟩ := exists_extent (List.cons_ne_nil u us)
      rw [hb] at ha
      obtain rfl : ⟨t.span.start, b.stop⟩ = a := Option.some.inj ha
      have hwithin := ih (h.of_sublist (List.sublist_cons_self ..)) hb
      intro v hv
      obtain rfl | hv := List.mem_cons.mp hv
      · -- the first token stops before the last one does
        have hnext := hlater u List.mem_cons_self
        have hunext := h.start_lt_stop u (by simp)
        have hu := (hwithin u List.mem_cons_self).2
        exact ⟨le_rfl, by simp only; omega⟩
      · have hstart := hlater v hv
        exact ⟨by simp only; omega, (hwithin v hv).2⟩

/-- The place of tokens is not empty. -/
theorem start_lt_stop_of_extent (h : Ordered ts) (ha : extent ts = some a) : a.start < a.stop := by
  obtain ⟨⟨t, ht, hstart⟩, -⟩ := exists_of_extent ha
  have hwithin := h.token_within ha t ht
  have hpos := h.start_lt_stop t ht
  unfold Span.Within at hwithin
  omega

/-- The place of tokens is before that of later tokens. -/
theorem stop_le_start (h : Ordered (ts ++ us)) (ha : extent ts = some a)
    (hb : extent us = some b) : a.stop ≤ b.start := by
  obtain ⟨-, t, ht, hstop⟩ := exists_of_extent ha
  obtain ⟨⟨u, hu, hstart⟩, -⟩ := exists_of_extent hb
  rw [← hstop, ← hstart]
  exact (List.pairwise_append.mp h.pairwise).2.2 t ht u hu

/-- The place of some of the tokens lies within the place of all. -/
theorem extent_within (h : Ordered ts) (hus : us <:+: ts) (ha : extent us = some a)
    (hb : extent ts = some b) : a.Within b := by
  obtain ⟨⟨t, ht, hstart⟩, u, hu, hstop⟩ := exists_of_extent ha
  have htwithin := h.token_within hb t (hus.subset ht)
  have huwithin := h.token_within hb u (hus.subset hu)
  exact ⟨hstart ▸ htwithin.1, hstop ▸ huwithin.2⟩

/-- The place of two phrases with something between is the hull of their places. -/
theorem extent_hull {ws : List Placed} (h : Ordered (ts ++ (us ++ ws))) (ha : extent ts = some a)
    (hb : extent ws = some b) : extent (ts ++ (us ++ ws)) = some (a.merge b) := by
  have horder : Ordered (ts ++ ws) :=
    h.of_sublist ((List.sublist_append_right us ws).append_left ts)
  have hbefore := horder.stop_le_start ha hb
  have hapos := (h.of_sublist (List.sublist_append_left ..)).start_lt_stop_of_extent ha
  have hbpos := (horder.of_sublist (List.sublist_append_right ..)).start_lt_stop_of_extent hb
  have hmerge : a.merge b = ⟨a.start, b.stop⟩ := by
    rw [Span.merge, min_eq_left (by omega), max_eq_right (by omega)]
  rw [extent_append, extent_append, ha, hb, hmerge]
  cases extent us <;> rfl

end Ordered

end Placed

/-! ## The place of a node -/

/-- If the tokens are in order and the value is a node, its span is the place of the tokens. -/
def Symbol.AtPlace (ts : List Placed) : (s : Symbol) → s.Value → Prop
  | terminal _, _ => True
  | nonterminal n, v =>
    Placed.Ordered ts → ∀ x, n.node? v = some x → Placed.extent ts = some x.span

/-- A node has tokens. -/
theorem Rule.ne_nil_of_node? {r : Rule} {ts : List Placed} {vs : Values r.rhs} {v : r.lhs.Value}
    {x : Node} (h : Spells r.rhs ts vs) (hx : r.lhs.node? v = some x) : ts ≠ [] := by
  rintro rfl
  have hnull := Nonterminal.eq_of_nullable (firsts_nullable r (h.rowNullable rfl))
  generalize r.lhs = n at v hx hnull
  obtain rfl | rfl := hnull
  all_goals cases hx

theorem Rule.atPlace {r : Rule} {ts : List Placed} {vs : Values r.rhs} (h : Spells r.rhs ts vs)
    (heach : Values.Each (fun s ts v => s.AtPlace ts v) r.rhs ts vs) :
    Symbol.AtPlace ts (.nonterminal r.lhs) (r.build (Placed.extent ts).span vs) := by
  intro hts x hx
  have hplace : Placed.extent ts = some (Placed.extent ts).span := by
    obtain ⟨a, ha⟩ := Placed.exists_extent (Rule.ne_nil_of_node? h hx)
    rw [ha]
    rfl
  cases r
  -- phrases that are no nodes
  case program | noStmts | stmtsOnly | stmtsSemi | nextStmt | firstStmt | eq | notEq | lt | gt
      | ltEq | gtEq | strEq | strNotEq | add | sub | mul | div | mod => cases hx
  -- the same phrase at another level
  case anyOpen | anyClosed | simple | expr | orAnd | andCompare | compareSum | sumProduct
      | productUnary | unaryPrimary => exact heach.single hts x hx
  -- the hull of two operands
  case or_ | and_ | compare | sum | product =>
    obtain ⟨l, _, r, ⟨⟩⟩ := vs
    obtain ⟨us, _, rfl, hl, op, _, rfl, -, ws, _, rfl, hr, rfl⟩ := heach
    obtain rfl := Option.some.inj hx
    rw [List.append_nil] at hts ⊢
    have hrest := List.sublist_append_right us (op ++ ws)
    have hl := hl (hts.of_sublist (List.sublist_append_left ..)) (.expr l) rfl
    have hr := hr (hts.of_sublist ((List.sublist_append_right op ws).trans hrest)) (.expr r) rfl
    exact hts.extent_hull hl hr
  case parens =>
    obtain rfl := Option.some.inj hx
    exact hplace.trans (congrArg some (Expr.span_withSpan _ _).symm)
  all_goals
    obtain rfl := Option.some.inj hx
    exact hplace

/-- **Spans are places.** The span of a node is the place of the tokens that spell it. -/
theorem Node.SpelledBy.extent_eq {x : Node} {ts : List Placed} (h : x.SpelledBy ts)
    (hts : Placed.Ordered ts) : Placed.extent ts = some x.span := by
  have hplace {n : Nonterminal} {v : n.Value} (h : Spells [.nonterminal n] ts (v, ())) :
      Symbol.AtPlace ts (.nonterminal n) v :=
    (h.each (fun _ => trivial) (fun _ _ _ => Rule.atPlace)).single
  cases x with
  | stmt s => exact hplace h hts (.stmt s) rfl
  | expr e => exact hplace h hts (.expr e) rfl

/-! ## Fragments as sources -/

theorem Lexeme.Cut.lparen (rest : List Char) : Cut (.token (.mark .lparen)) ['('] rest :=
  .single rfl (fun d _ => ⟨rfl, by simp⟩)

theorem Lexeme.Cut.rparen (rest : List Char) : Cut (.token (.mark .rparen)) [')'] rest :=
  .single rfl (fun d _ => ⟨rfl, by simp⟩)

theorem Placed.relocate_zero : Placed.relocate (· + 0) = id := rfl

theorem Placed.extent_cons_concat (t : Placed) (ts : List Placed) (u : Placed) :
    Placed.extent (t :: (ts ++ [u])) = some ⟨t.span.start, u.span.stop⟩ := by
  simp [Placed.extent, List.getLast?_cons]

theorem monotone_add (k : Nat) : Monotone (· + k) :=
  fun _ _ h => Nat.add_le_add_right h k

/-- The tokens of a fragment in parentheses, of which `stop` is the last offset. -/
def Placed.parenthesised (zs : List Placed) (stop : Nat) : List Placed :=
  ⟨.mark .lparen, ⟨0, 1⟩⟩ :: zs.map (Placed.relocate (· + 1)) ++ [⟨.mark .rparen, ⟨stop, stop + 1⟩⟩]

theorem Placed.relocate_parenthesised (zs : List Placed) (n offset : Nat) :
    (Placed.parenthesised zs (1 + n)).map (Placed.relocate (· + offset)) =
      ⟨.mark .lparen, ⟨offset, offset + 1⟩⟩ :: (zs.map (Placed.relocate (· + (offset + 1))) ++
        [⟨.mark .rparen, ⟨offset + 1 + n, offset + 1 + n + 1⟩⟩]) := by
  have hshift : Placed.relocate (· + offset) ∘ Placed.relocate (· + 1) =
      Placed.relocate (· + (offset + 1)) := by
    funext z
    simp only [Function.comp_apply, Placed.relocate, Span.relocate, Nat.add_assoc, Nat.add_comm 1]
  have hstart : 1 + n + offset = offset + 1 + n := by omega
  simp only [Placed.parenthesised, List.map_cons, List.map_append, List.map_map, hshift,
    List.map_nil, Placed.relocate, Span.relocate, List.cons_append, Nat.zero_add,
    Nat.add_right_comm _ 1 offset, hstart]

namespace Fragment

variable {text : List Char} {zs : List Placed} {s : Stmt} {e : Expr}

theorem scans (h : Fragment text zs) : Scans [] 0 text zs := by
  have hscans := h [] 0 (by simp [Lexeme.Stops])
  rwa [Placed.relocate_zero, List.map_id] at hscans

/-- A statement is a source. -/
theorem ofSource_stmt (h : Fragment text zs) (hs : Spells [.nonterminal .stmt] zs (s, ())) :
    Program.ofSource (String.ofList text) = .ok ⟨[s]⟩ := by
  have hscans : Scans [] 0 (String.ofList text).toList zs := by
    rw [String.toList_ofList]
    exact h.scans
  have hprogram := ((hs.reduce .firstStmt).reduce .stmtsOnly).reduce .program
  exact Program.ofSource_eq_ok_iff_scans.mpr ⟨zs, hscans, hprogram⟩

/-- A fragment in parentheses is a fragment. -/
theorem parens (h : Fragment text zs) :
    Fragment ('(' :: (text ++ [')'])) (Placed.parenthesised zs (1 + utf8Len text)) := by
  intro rest offset hrest
  have hclose : Scans rest (offset + 1 + utf8Len text) ([')'] ++ [])
      [⟨.mark .rparen, ⟨offset + 1 + utf8Len text, offset + 1 + utf8Len text + 1⟩⟩] :=
    .token (.rparen _) (.done _)
  have hinner := h ([')'] ++ [] ++ rest) (offset + 1) (by simp [Lexeme.Stops])
  have hopen := Scans.token (.lparen _) (hinner.append hclose)
  rw [Placed.relocate_parenthesised]
  exact hopen

/-- A fragment that is an expression can be printed. -/
theorem ofSource_print (h : Fragment text zs) (he : Spells [.nonterminal .expr] zs (e, ())) :
    Program.ofSource ("print(" ++ String.ofList text ++ ")") =
      .ok ⟨[.print ⟨0, utf8Len text + 7⟩ (e.shift 6)]⟩ := by
  have hword : Lexeme.Cut (.token (.word .print)) "print".toList
      ('(' :: (text ++ [')']) ++ []) := by
    rw [← Lexeme.word_keyword .print]
    exact .of_isWord (Lexeme.isWord_keyword .print) (by simp; decide)
  have hscans := Scans.token hword (h.parens [] 5 (by simp [Lexeme.Stops]))
  have htext : "print".toList ++ '(' :: (text ++ [')']) =
      ("print(" ++ String.ofList text ++ ")").toList := by
    simp
  rw [Placed.relocate_parenthesised, htext] at hscans
  -- the tokens spell the statement
  have hclose := Spells.single ⟨.mark .rparen, ⟨6 + utf8Len text, 6 + utf8Len text + 1⟩⟩
  have hinner := (he.relocate (monotone_add 6)).cons hclose
  have hprint := Spells.reduce .print
    (.token ⟨.word .print, ⟨0, 5⟩⟩ (.token ⟨.mark .lparen, ⟨5, 6⟩⟩ hinner))
  rw [← List.cons_append, Placed.extent_cons_concat] at hprint
  have hstmt := (hprint.reduce .simple).reduce .anyClosed
  have hprogram := ((hstmt.reduce .firstStmt).reduce .stmtsOnly).reduce .program
  have hstop : utf8Len text + 7 = 6 + utf8Len text + 1 := by omega
  rw [hstop]
  exact Program.ofSource_eq_ok_iff_scans.mpr ⟨_, hscans, hprogram⟩

/-- Parentheses put the expression inside at their own place. -/
theorem spells_parenthesised (he : Spells [.nonterminal .expr] zs (e, ())) (n : Nat) :
    Spells [.nonterminal .expr] (Placed.parenthesised zs n)
      ((e.shift 1).withSpan ⟨0, n + 1⟩, ()) := by
  have hclose := Spells.single ⟨.mark .rparen, ⟨n, n + 1⟩⟩
  have hparens := Spells.reduce .parens
    (.token ⟨.mark .lparen, ⟨0, 1⟩⟩ ((he.relocate (monotone_add 1)).cons hclose))
  rw [Placed.extent_cons_concat] at hparens
  exact hparens.expr_of_primary

end Fragment

/-! ## Fidelity -/

/-- The source has this text at the span. -/
def Span.Holds (s : Span) (source text : String) : Prop :=
  ∃ before behind : String, source = before ++ text ++ behind ∧
    s.start = before.utf8ByteSize ∧ s.stop = before.utf8ByteSize + text.utf8ByteSize

/-- A node of an accepted source has a text, which is a fragment that spells the node. -/
theorem Node.SpelledBy.exists_fragment {source : String} {tokens us : List Placed} {x : Node}
    (hscans : Scans [] 0 source.toList tokens) (hus : us <:+: tokens) (h : x.SpelledBy us) :
    ∃ (text : List Char) (zs : List Placed), x.span.Holds source (String.ofList text) ∧
      zs.map (Placed.relocate (· + x.span.start)) = us ∧ Fragment text zs := by
  have hplace := h.extent_eq (hscans.ordered.of_sublist hus.sublist)
  have hne : us ≠ [] := by
    rintro rfl
    cases hplace
  obtain ⟨pre, post, rfl⟩ := hus
  obtain ⟨before, text, behind, zs, hsource, hspan, hzs, hfragment⟩ := hscans.slice hne
  have hx : x.span = ⟨utf8Len before, utf8Len (before ++ text)⟩ := by
    rw [Nat.zero_add, Nat.zero_add] at hspan
    exact Option.some.inj (hplace.symm.trans hspan)
  refine ⟨text, zs, ⟨String.ofList before, String.ofList behind, ?_, ?_, ?_⟩, ?_, hfragment⟩
  · rw [← String.ofList_append, ← String.ofList_append, ← hsource, String.ofList_toList]
  · rw [hx, ← String.utf8ByteSize_ofList]
  · rw [hx, utf8Len_append, ← String.utf8ByteSize_ofList, ← String.utf8ByteSize_ofList]
  · rw [hx]
    rwa [Nat.zero_add] at hzs

/-- What the spans of a tree say about the source that it was read from. -/
structure Program.Faithful (source : String) (p : Program) : Prop where
  /-- a statement, cut out, is a program with that statement alone -/
  stmt : ∀ s, .stmt s ∈ p.nodes → ∃ (text : String) (s₀ : Stmt), s.span.Holds source text ∧
    s₀.shift s.span.start = s ∧ Program.ofSource text = .ok ⟨[s₀]⟩
  /-- an expression, cut out, can be printed; and in parentheses, which its span then covers -/
  expr : ∀ e, .expr e ∈ p.nodes → ∃ (text : String) (e₀ : Expr), e.span.Holds source text ∧
    e₀.shift e.span.start = e ∧
    Program.ofSource ("print(" ++ text ++ ")") =
      .ok ⟨[.print ⟨0, text.utf8ByteSize + 7⟩ (e₀.shift 6)]⟩ ∧
    Program.ofSource ("print((" ++ text ++ "))") =
      .ok ⟨[.print ⟨0, text.utf8ByteSize + 9⟩
        ((e₀.shift 7).withSpan ⟨6, text.utf8ByteSize + 8⟩)]⟩
  /-- a node starts where a token starts and stops where a token stops -/
  tokens : ∃ tokens, scan source.toList = .ok tokens ∧
    ∀ x ∈ p.nodes, ∃ us, us <:+: tokens ∧ Placed.extent us = some x.span
  /-- a node is not empty -/
  start_lt_stop : ∀ x ∈ p.nodes, x.span.start < x.span.stop
  /-- what is below a node lies within it -/
  nested : ∀ x ∈ p.nodes, ∀ y ∈ x.nodes, y.span.Within x.span

/-- A fragment that is an expression can be printed in parentheses. -/
theorem Fragment.ofSource_print_parens {text : List Char} {zs : List Placed} {e : Expr}
    (h : Fragment text zs) (he : Spells [.nonterminal .expr] zs (e, ())) :
    Program.ofSource ("print((" ++ String.ofList text ++ "))") =
      .ok ⟨[.print ⟨0, utf8Len text + 9⟩
        ((e.shift 7).withSpan ⟨6, utf8Len text + 8⟩)]⟩ := by
  have hprint := h.parens.ofSource_print (spells_parenthesised he _)
  have htext : "print(" ++ String.ofList ('(' :: (text ++ [')'])) ++ ")" =
      "print((" ++ String.ofList text ++ "))" := by
    rw [← String.toList_inj]
    simp
  have hparens : '('.utf8Size = 1 ∧ utf8Len [')'] = 1 := ⟨rfl, rfl⟩
  have hlength : utf8Len ('(' :: (text ++ [')'])) + 7 = utf8Len text + 9 := by
    rw [utf8Len_cons, utf8Len_append, hparens.1, hparens.2]
  have hstop : 1 + utf8Len text + 1 + 6 = utf8Len text + 8 := by omega
  have hspan : Span.relocate (· + 6) ⟨0, 1 + utf8Len text + 1⟩ = ⟨6, utf8Len text + 8⟩ :=
    congrArg (Span.mk 6) hstop
  have hmoved : ((e.shift 1).withSpan ⟨0, 1 + utf8Len text + 1⟩).shift 6 =
      (e.shift 7).withSpan ⟨6, utf8Len text + 8⟩ := by
    rw [Expr.shift, Expr.relocate_withSpan, hspan, Expr.shift, Expr.relocate_relocate]
    rfl
  rw [htext, hlength, hmoved] at hprint
  exact hprint

/-- **Span fidelity.** The tree of a source is faithful to it. -/
theorem Program.ofSource_span_fidelity {source : String} {p : Program}
    (h : Program.ofSource source = .ok p) : p.Faithful source := by
  obtain ⟨tokens, hscans, hp⟩ := Program.ofSource_eq_ok_iff_scans.mp h
  have hnode (x : Node) (hx : x ∈ p.nodes) : ∃ us, us <:+: tokens ∧ x.SpelledBy us :=
    Spells.node hp hx
  have hordered {us : List Placed} (hus : us <:+: tokens) : Placed.Ordered us :=
    hscans.ordered.of_sublist hus.sublist
  refine ⟨?_, ?_, ⟨tokens, scan_eq_ok_iff.mpr hscans, ?_⟩, ?_, ?_⟩
  · intro s hs
    obtain ⟨us, hus, hspelled⟩ := hnode _ hs
    obtain ⟨text, zs, hholds, hzs, hfragment⟩ := hspelled.exists_fragment hscans hus
    obtain ⟨⟨s₀, ⟨⟩⟩, hs₀, hshift⟩ := Spells.of_relocate (monotone_add _) hspelled hzs
    exact ⟨String.ofList text, s₀, hholds, congrArg Prod.fst hshift, hfragment.ofSource_stmt hs₀⟩
  · intro e he
    obtain ⟨us, hus, hspelled⟩ := hnode _ he
    obtain ⟨text, zs, hholds, hzs, hfragment⟩ := hspelled.exists_fragment hscans hus
    obtain ⟨⟨e₀, ⟨⟩⟩, he₀, hshift⟩ := Spells.of_relocate (monotone_add _) hspelled hzs
    refine ⟨String.ofList text, e₀, hholds, congrArg Prod.fst hshift, ?_⟩
    rw [String.utf8ByteSize_ofList]
    exact ⟨hfragment.ofSource_print he₀, hfragment.ofSource_print_parens he₀⟩
  · intro x hx
    obtain ⟨us, hus, hspelled⟩ := hnode x hx
    exact ⟨us, hus, hspelled.extent_eq (hordered hus)⟩
  · intro x hx
    obtain ⟨us, hus, hspelled⟩ := hnode x hx
    exact (hordered hus).start_lt_stop_of_extent (hspelled.extent_eq (hordered hus))
  · intro x hx y hy
    obtain ⟨us, hus, hspelled⟩ := hnode x hx
    obtain ⟨ws, hws, hyspelled⟩ := hspelled.node hy
    exact (hordered hus).extent_within hws (hyspelled.extent_eq (hordered (hws.trans hus)))
      (hspelled.extent_eq (hordered hus))

/-- In `begin print((1)) end` the block, the statement in it and the parenthesised number can
be cut out. -/
theorem Program.ofSource_span_fidelity_block :
    Program.ofSource "begin print((1)) end" =
        .ok ⟨[.block ⟨0, 20⟩ [.print ⟨6, 16⟩ (.int ⟨12, 15⟩ 1)]]⟩ ∧
      Program.Faithful "begin print((1)) end"
        ⟨[.block ⟨0, 20⟩ [.print ⟨6, 16⟩ (.int ⟨12, 15⟩ 1)]]⟩ := by
  have hscan : scan "begin print((1)) end".toList = .ok [⟨.word .begin_, ⟨0, 5⟩⟩,
      ⟨.word .print, ⟨6, 11⟩⟩, ⟨.mark .lparen, ⟨11, 12⟩⟩, ⟨.mark .lparen, ⟨12, 13⟩⟩,
      ⟨.int 1, ⟨13, 14⟩⟩, ⟨.mark .rparen, ⟨14, 15⟩⟩, ⟨.mark .rparen, ⟨15, 16⟩⟩,
      ⟨.word .end_, ⟨17, 20⟩⟩] := by
    with_unfolding_all rfl
  have hone := Spells.expr_of_primary (.reduce .int (.single ⟨.int 1, ⟨13, 14⟩⟩))
  have hparens := Spells.expr_of_primary (.reduce .parens (.token ⟨.mark .lparen, ⟨12, 13⟩⟩
    (hone.cons (.single ⟨.mark .rparen, ⟨14, 15⟩⟩))))
  have hprint := Spells.reduce .print (.token ⟨.word .print, ⟨6, 11⟩⟩
    (.token ⟨.mark .lparen, ⟨11, 12⟩⟩ (hparens.cons (.single ⟨.mark .rparen, ⟨15, 16⟩⟩))))
  have hbody := Spells.reduce .stmtsOnly
    (.reduce .firstStmt (.reduce .anyClosed (.reduce .simple hprint)))
  have hblock := Spells.reduce .block
    (.token ⟨.word .begin_, ⟨0, 5⟩⟩ (hbody.cons (.single ⟨.word .end_, ⟨17, 20⟩⟩)))
  have hstmts := Spells.reduce .stmtsOnly
    (.reduce .firstStmt (.reduce .anyClosed (.reduce .simple hblock)))
  have hsource : Program.ofSource "begin print((1)) end" =
      .ok ⟨[.block ⟨0, 20⟩ [.print ⟨6, 16⟩ (.int ⟨12, 15⟩ 1)]]⟩ :=
    ofSource_eq_ok_iff.mpr ⟨_, hscan, ofTokens_of_spelledBy (hstmts.reduce .program)⟩
  exact ⟨hsource, ofSource_span_fidelity hsource⟩

end Scriptling

import Scriptling.Proofs.Grammar.Completeness

/-!
# Stacks that can be completed

A stack of phrases is worth keeping if some continuation of the input makes a program of
it. `Stack.Pending` says so by the rules: a rule is in progress on top of the stack, its
phrase is awaited by a rule in progress below, and so on down to the whole program. Since
every phrase can be derived from some tokens (`Spells.exists_of_row`), whatever a pending
rule still waits for can be supplied, and then what the rules below wait for
(`Stack.Pending.completable`).

That the parser keeps to such stacks is a matter of the automaton alone: a stack whose
states follow one another along its edges (`Stack.Path`) has all items of its last state
pending, because the automaton is sound. Lookaheads play no part in this. So it also holds
of stacks that the parser comes to by reductions which a better informed parser would not
have made.
-/

namespace Scriptling

/-! ## Every phrase has tokens -/

theorem Terminal.exists_token (t : Terminal) : ∃ k : Placed, k.token.terminal = t := by
  cases t with
  | word w => exact ⟨⟨.word w, ⟨0, 0⟩⟩, rfl⟩
  | int => exact ⟨⟨.int 0, ⟨0, 0⟩⟩, rfl⟩
  | str => exact ⟨⟨.str "", ⟨0, 0⟩⟩, rfl⟩
  | name => exact ⟨⟨.name "", ⟨0, 0⟩⟩, rfl⟩
  | mark m => exact ⟨⟨.mark m, ⟨0, 0⟩⟩, rfl⟩

/-- A terminal is spelled by each token of its class. -/
theorem Spells.of_terminal {t : Terminal} {k : Placed} (hk : k.token.terminal = t) :
    ∃ v, Spells [.terminal t] [k] (v, ()) := by
  subst hk
  exact ⟨_, .single k⟩

/-- There is an instance of every phrase. -/
theorem Spells.exists_of_nonterminal (n : Nonterminal) :
    ∃ ts v, Spells [.nonterminal n] ts (v, ()) := by
  -- `true` is an expression of every level, and `break` a statement of every kind but one
  have hprimary := Spells.reduce .true_ (.single ⟨.word .true_, ⟨0, 0⟩⟩)
  have hunary := Spells.reduce .unaryPrimary hprimary
  have hproduct := Spells.reduce .productUnary hunary
  have hsum := Spells.reduce .sumProduct hproduct
  have hcompare := Spells.reduce .compareSum hsum
  have hand := Spells.reduce .andCompare hcompare
  have hor := Spells.reduce .orAnd hand
  have hexpr := Spells.reduce .expr hor
  have hsimple := Spells.reduce .break_ (.single ⟨.word .break_, ⟨0, 0⟩⟩)
  have hclosed := Spells.reduce .simple hsimple
  have hstmt := Spells.reduce .anyClosed hclosed
  have hthen := Spells.token ⟨.word .then_, ⟨0, 0⟩⟩ hstmt
  have hopen := Spells.reduce .ifThen (.token ⟨.word .if_, ⟨0, 0⟩⟩ (hexpr.cons hthen))
  have hstmts := Spells.reduce .firstStmt hstmt
  have hlist := Spells.reduce .stmtsOnly hstmts
  cases n with
  | program => exact ⟨_, _, .reduce .program hlist⟩
  | stmtList => exact ⟨_, _, hlist⟩
  | stmts => exact ⟨_, _, hstmts⟩
  | stmt => exact ⟨_, _, hstmt⟩
  | closedStmt => exact ⟨_, _, hclosed⟩
  | openStmt => exact ⟨_, _, hopen⟩
  | simpleStmt => exact ⟨_, _, hsimple⟩
  | expr => exact ⟨_, _, hexpr⟩
  | orExpr => exact ⟨_, _, hor⟩
  | andExpr => exact ⟨_, _, hand⟩
  | compareExpr => exact ⟨_, _, hcompare⟩
  | compareOp => exact ⟨_, _, .reduce .eq (.single ⟨.mark .eq, ⟨0, 0⟩⟩)⟩
  | sumExpr => exact ⟨_, _, hsum⟩
  | sumOp => exact ⟨_, _, .reduce .add (.single ⟨.mark .plus, ⟨0, 0⟩⟩)⟩
  | productExpr => exact ⟨_, _, hproduct⟩
  | productOp => exact ⟨_, _, .reduce .mul (.single ⟨.mark .star, ⟨0, 0⟩⟩)⟩
  | unaryExpr => exact ⟨_, _, hunary⟩
  | primary => exact ⟨_, _, hprimary⟩

/-- Every row of symbols is spelled by some tokens. -/
theorem Spells.exists_of_row (row : List Symbol) : ∃ ts vs, Spells row ts vs := by
  induction row with
  | nil => exact ⟨[], (), .nil⟩
  | cons s row ih =>
    obtain ⟨us, vs, hrow⟩ := ih
    obtain ⟨ts, v, hs⟩ : ∃ ts v, Spells [s] ts (v, ()) := by
      cases s with
      | terminal t =>
        obtain ⟨k, hk⟩ := t.exists_token
        obtain ⟨v, hv⟩ := Spells.of_terminal hk
        exact ⟨[k], v, hv⟩
      | nonterminal n => exact Spells.exists_of_nonterminal n
    exact ⟨ts ++ us, (v, vs), hs.cons hrow⟩

/-! ## Rules in progress on a stack -/

/-- `stack.Pending r rest`: on top of the stack lie the phrases of rule `r` up to the
symbols `rest`, and below them the phrase that `r` makes is awaited. -/
inductive Stack.Pending : Stack → Rule → List Symbol → Prop
  /-- at the bottom a program is awaited -/
  | start : Stack.Pending [] .program Rule.program.rhs
  /-- where a phrase is awaited, each of its rules may start -/
  | enter {stack : Stack} {r : Rule} {rest : List Symbol} (r' : Rule) :
      Stack.Pending stack r (.nonterminal r'.lhs :: rest) → Stack.Pending stack r' r'.rhs
  /-- a phrase brings the rule that waits for it one further -/
  | push {stack : Stack} {r : Rule} {rest : List Symbol} (p : Phrase) :
      Stack.Pending stack r (p.symbol :: rest) → Stack.Pending (p :: stack) r rest

/-- **Completion.** If the tokens read are those of the stack and what a pending rule waits
for follows, then the tokens so far begin a program. -/
theorem Stack.Pending.completable {stack : Stack} {r : Rule} {rest : List Symbol}
    (h : stack.Pending r rest) {ts us : List Placed} {vs : Values rest}
    (hts : stack.Reads ts) (hus : Spells rest us vs) :
    ∃ (more : List Placed) (p : Program), p.SpelledBy (ts ++ us ++ more) := by
  induction h generalizing ts us with
  | start =>
    cases hts
    have hprogram := hus.reduce .program
    rw [← List.append_nil us] at hprogram
    exact ⟨[], _, hprogram⟩
  | @enter stack r rest r' _ ih =>
    -- the rule is finished, and behind its phrase comes what the rule below waits for
    obtain ⟨ws, vs', hrest⟩ := Spells.exists_of_row rest
    obtain ⟨more, p, hp⟩ := ih hts ((hus.reduce r').cons hrest)
    refine ⟨ws ++ more, p, ?_⟩
    simpa only [List.append_assoc] using hp
  | push p _ ih =>
    cases hts with
    | push _ hbelow hspells hplace =>
      obtain ⟨more, q, hq⟩ := ih hbelow (hspells.cons hus)
      refine ⟨more, q, ?_⟩
      simpa only [List.append_assoc] using hq

/-- The symbols on top of the stack are those that the rule has seen. -/
theorem Stack.Pending.symbols {stack : Stack} {r : Rule} {rest : List Symbol}
    (h : stack.Pending r rest) :
    ∃ seen below, r.rhs = seen ++ rest ∧ stack.map (·.symbol) = seen.reverse ++ below := by
  induction h with
  | start => exact ⟨[], [], rfl, rfl⟩
  | @enter stack r rest r' _ _ => exact ⟨[], _, rfl, rfl⟩
  | push p _ ih =>
    obtain ⟨seen, below, hrhs, hsymbols⟩ := ih
    refine ⟨seen ++ [p.symbol], below, ?_, ?_⟩
    · rw [hrhs, List.append_assoc]
      rfl
    · rw [List.map_cons, hsymbols, List.reverse_append]
      rfl

/-- Phrases with the symbols of a row can be taken off. -/
theorem Stack.collect_of_symbols {row below : List Symbol} {stack : Stack}
    (h : stack.map (·.symbol) = row.reverse ++ below) :
    ∃ vs place, stack.collect row = some (vs, place, stack.drop row.length) := by
  induction row generalizing below with
  | nil => exact ⟨(), none, rfl⟩
  | cons s row ih =>
    rw [List.reverse_cons, List.append_assoc] at h
    obtain ⟨vs, place, hrow⟩ := ih h
    -- the phrase of the first symbol lies under those of the others
    have hdrop := congrArg (List.drop row.length) h
    rw [← List.map_drop, ← List.length_reverse, List.drop_left] at hdrop
    rw [List.length_reverse] at hdrop
    obtain ⟨p, stack', hstack, rfl, -⟩ := List.map_eq_cons_iff.mp hdrop
    rw [hstack] at hrow
    refine ⟨(p.value, vs), p.place.join place, ?_⟩
    rw [Stack.collect_cons hrow, List.length_cons, ← List.drop_drop, hstack]
    rfl

/-- A rule that is finished finds its phrases on the stack. -/
theorem Stack.Pending.collect {stack : Stack} {r : Rule} (h : stack.Pending r []) :
    ∃ vs place, stack.collect r.rhs = some (vs, place, stack.drop r.rhs.length) := by
  obtain ⟨seen, below, hrhs, hsymbols⟩ := h.symbols
  rw [List.append_nil] at hrhs
  rw [hrhs]
  exact Stack.collect_of_symbols hsymbols

/-! ## Stacks that follow the automaton -/

/-- Every state on the stack is reached from the one below by the symbol of its phrase. -/
inductive Stack.Path : Stack → Prop
  /-- the empty stack is in the initial state -/
  | nil : Stack.Path []
  /-- one edge further -/
  | push {stack : Stack} (p : Phrase) : Stack.Path stack →
      (automaton.state stack.state).target? p.symbol = some p.state → Stack.Path (p :: stack)

theorem Stack.Path.drop {stack : Stack} (h : stack.Path) (n : Nat) :
    Stack.Path (stack.drop n) := by
  induction h generalizing n with
  | nil => rw [List.drop_nil]; exact .nil
  | push p hstack hp ih =>
    cases n with
    | zero => exact .push p hstack hp
    | succ n => exact ih n

/-- Only the empty stack is in the initial state. -/
theorem Stack.Path.eq_nil {stack : Stack} (h : stack.Path) (h0 : stack.state = 0) :
    stack = [] := by
  cases h with
  | nil => rfl
  | push p _ hp => exact absurd h0 (automaton_links _ hp).1

/-- If the items of a state that have begun are pending, then so are those that have not:
they are introduced by others, and those at last by items that have begun. -/
theorem Stack.Path.pending_of_begun {stack : Stack} (h : stack.Path)
    (hbegun : ∀ i ∈ (automaton.state stack.state).items, i.rest ≠ i.rule.rhs →
      stack.Pending i.rule i.rest) :
    ∀ i ∈ (automaton.state stack.state).items, stack.Pending i.rule i.rest := by
  intro i hi
  by_cases hfresh : i.rest = i.rule.rhs
  case neg => exact hbegun i hi hfresh
  induction hn : i.rule.lhs.ctorIdx using Nat.strongRecOn generalizing i with
  | _ n ih =>
    rw [hfresh]
    obtain ⟨h0, hprogram⟩ | ⟨j, hj, hhead, hearlier⟩ := (automaton_founds _ hi).1 hfresh
    · rw [h.eq_nil h0, hprogram]
      exact .start
    · obtain ⟨rest, hrest⟩ := List.head?_eq_some_iff.mp hhead
      have hpending : stack.Pending j.rule j.rest := by
        by_cases hj' : j.rest = j.rule.rhs
        · refine ih _ ?_ j hj hj' rfl
          rw [← hn]
          exact hearlier.resolve_left (absurd hj')
        · exact hbegun j hj hj'
      rw [hrest] at hpending
      exact .enter i.rule hpending

/-- **All items of the state on top are pending.** -/
theorem Stack.Path.pending {stack : Stack} (h : stack.Path) :
    ∀ i ∈ (automaton.state stack.state).items, stack.Pending i.rule i.rest := by
  induction h with
  | nil =>
    refine Stack.Path.nil.pending_of_begun (fun i hi hbegun => ?_)
    exact absurd (automaton_sound.1 i hi) hbegun
  | push p hstack hp ih =>
    refine (Stack.Path.push p hstack hp).pending_of_begun (fun i hi hbegun => ?_)
    obtain ⟨j, hj, hrule, hrest⟩ := ((automaton_links _ hp).2.2.2 i hi).resolve_left hbegun
    have hpending := ih j hj
    rw [hrule, hrest] at hpending
    exact .push p hpending

/-- A whole program lies at the bottom of the stack. -/
theorem Stack.Path.eq_nil_of_program {stack : Stack} (h : stack.Path) {q : Nat}
    (hq : (automaton.state stack.state).target? (.nonterminal .program) = some q) :
    stack = [] :=
  h.eq_nil ((automaton_links _ hq).2.1 rfl)

/-- On a stack with anything but a whole program on top a rule is pending. -/
theorem Stack.Path.exists_pending {stack : Stack} (h : stack.Path)
    (hprogram : ∀ p ∈ stack.head?, p.symbol ≠ .nonterminal .program) :
    ∃ r rest, stack.Pending r rest := by
  cases h with
  | nil => exact ⟨_, _, .start⟩
  | push p hstack hp =>
    obtain ⟨j, hj, hhead⟩ := (automaton_links _ hp).2.2.1 (hprogram p rfl)
    obtain ⟨rest, hrest⟩ := List.head?_eq_some_iff.mp hhead
    have hpending := hstack.pending j hj
    rw [hrest] at hpending
    exact ⟨_, _, .push p hpending⟩

end Scriptling

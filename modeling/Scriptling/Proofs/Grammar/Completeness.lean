import Scriptling.Proofs.Grammar.Automaton
import Scriptling.Proofs.Grammar.Soundness

/-!
# The parser accepts every program

A derivation tells the parser what to do: to read each of its tokens, and to reduce where
one of its rules is finished. The automaton lets the parser do exactly that and nothing
else (`State.Expects`), so the parser follows the derivation (`Spells.followed`) and ends
with the value that the derivation builds.

A run is bounded by the number of tokens. Every token has 32 steps to give. It uses one for
being read and hands on the others as *credit* of its phrase; every rule takes one step
from the credit of its right side and leaves the rest to its left side (`Rule.credit_le`).
Only the two phrases that may have no tokens need an advance.

Together with soundness this makes the parser and the grammar agree: a row of tokens is
accepted with a program if and only if it spells that program. Since the parser gives one
answer, the grammar gives no row two programs.
-/

namespace Scriptling

/-! ## Running step after step -/

namespace Config

theorem run_of_step_none {c : Config} (h : c.step = none) (fuel : Nat) : c.run fuel = c := by
  cases fuel with
  | zero => rfl
  | succ fuel => rw [run, h]

theorem run_succ_of_step {c d : Config} (h : c.step = some d) (fuel : Nat) :
    c.run (fuel + 1) = d.run fuel := by
  rw [run, h]

/-- Two runs, one after the other, are one run. -/
theorem run_add (m n : Nat) (c : Config) : c.run (m + n) = (c.run m).run n := by
  induction m generalizing c with
  | zero => rw [Nat.zero_add, run]
  | succ m ih =>
    rw [Nat.add_right_comm]
    rcases hstep : c.step with _ | d
    · -- the parser has stopped, and more steps change nothing
      rw [run_of_step_none hstep, run_of_step_none hstep, run_of_step_none hstep]
    · rw [run_succ_of_step hstep, run_succ_of_step hstep, ih]

/-- Reading a token for which there is an edge. -/
theorem step_read {stack : Stack} {t : Placed} {rest : List Placed} {q : Nat}
    (hq : (automaton.state stack.state).target? (.terminal t.token.terminal) = some q) :
    Config.step ⟨stack, t :: rest⟩ =
      some ⟨⟨q, .terminal t.token.terminal, t.token.payload, some t.span⟩ :: stack, rest⟩ :=
  step_eq_some_iff.mpr (Or.inl (read?_eq_some_iff.mpr ⟨t, rest, q, rfl, hq, rfl⟩))

/-- Where the lookahead is not read, nothing is. -/
theorem read?_eq_none {c : Config}
    (h : ∀ t ∈ c.ahead, (automaton.state c.stack.state).target? (.terminal t) = none) :
    c.read? = none := by
  rw [Option.eq_none_iff_forall_ne_some]
  intro d hread
  obtain ⟨t, rest, q, hrest, hq, -⟩ := read?_eq_some_iff.mp hread
  have hahead : c.ahead = some t.token.terminal := by rw [ahead, hrest]; rfl
  rw [h _ hahead] at hq
  cases hq

/-- Replacing the phrases of a rule that is finished. -/
theorem step_reduce {stack below : Stack} {rest : List Placed} {r : Rule} {vs : Values r.rhs}
    {place : Extent} {q : Nat}
    (hr : (automaton.state stack.state).Expects r [] (Placed.lookahead rest))
    (hcollect : stack.collect r.rhs = some (vs, place, below))
    (hq : (automaton.state below.state).target? (.nonterminal r.lhs) = some q) :
    Config.step ⟨stack, rest⟩ =
      some ⟨⟨q, .nonterminal r.lhs, r.build place.span vs, place⟩ :: below, rest⟩ := by
  obtain ⟨hfinished, hunread⟩ := hr.finish
  refine step_eq_some_iff.mpr (Or.inr ⟨read?_eq_none hunread, ?_⟩)
  exact reduce?_eq_some_iff.mpr ⟨r, vs, place, below, q, hfinished, hcollect, hq, rfl⟩

end Config

/-- A phrase below the phrases of a row makes the row longer. -/
theorem Stack.collect_cons {row : List Symbol} {stack below : Stack} {vs : Values row}
    {place : Extent} {p : Phrase} (h : stack.collect row = some (vs, place, p :: below)) :
    stack.collect (p.symbol :: row) = some ((p.value, vs), p.place.join place, below) := by
  rw [Stack.collect, h]
  simp

/-! ## The number of steps -/

/-- The steps that a phrase leaves over out of 32 for each of its tokens. -/
def Nonterminal.credit : Nonterminal → Int
  | program => -2
  | stmtList => -1
  | stmts => 27
  | stmt => 28
  | closedStmt | openStmt => 29
  | simpleStmt => 30
  | expr => 23
  | orExpr => 24
  | andExpr => 25
  | compareExpr => 26
  | sumExpr => 27
  | productExpr => 28
  | unaryExpr => 29
  | primary | compareOp | sumOp | productOp => 30

/-- The steps that a symbol leaves over; a token uses one for being read. -/
def Symbol.credit : Symbol → Int
  | terminal _ => 31
  | nonterminal n => n.credit

/-- The steps that a row of symbols leaves over. -/
def rowCredit : List Symbol → Int
  | [] => 0
  | s :: row => s.credit + rowCredit row

/-- Every rule can pay for its own reduction. -/
theorem Rule.credit_le (r : Rule) : r.lhs.credit + 1 ≤ rowCredit r.rhs := by
  cases r <;> decide

/-! ## Following a derivation -/

/-- Wherever a rule waits for the row and the lookahead behind the tokens fits, the parser
reads the tokens and comes to hold the values of the row, with the rule finished as far as
the row goes. -/
def Followed (row : List Symbol) (ts : List Placed) (vs : Values row) : Prop :=
  ∀ (stack : Stack) (us : List Placed) (r : Rule),
    (automaton.state stack.state).Expects r row (Placed.lookahead us) →
    ∃ n stack', Config.run n ⟨stack, ts ++ us⟩ = ⟨stack', us⟩ ∧
      stack'.collect row = some (vs, Placed.extent ts, stack) ∧
      (automaton.state stack'.state).Expects r [] (Placed.lookahead us) ∧
      (n : Int) + rowCredit row ≤ 32 * ts.length

/-- If the right side of a rule is followed and the rule may start, the parser comes to
hold the phrase of its left side. -/
theorem Followed.reduce {r : Rule} {ts us : List Placed} {vs : Values r.rhs}
    (hrhs : Followed r.rhs ts vs) (stack : Stack) {q : Nat}
    (hr : (automaton.state stack.state).Expects r r.rhs (Placed.lookahead us))
    (hq : (automaton.state stack.state).target? (.nonterminal r.lhs) = some q) :
    ∃ n, Config.run n ⟨stack, ts ++ us⟩ =
        ⟨⟨q, .nonterminal r.lhs, r.build (Placed.extent ts).span vs, Placed.extent ts⟩ :: stack,
          us⟩ ∧
      (n : Int) + r.lhs.credit ≤ 32 * ts.length := by
  obtain ⟨n, stack', hrun, hcollect, hfinal, hn⟩ := hrhs stack us r hr
  have hstep := Config.step_reduce hfinal hcollect hq
  refine ⟨n + 1, ?_, ?_⟩
  · rw [Config.run_add, hrun, Config.run_succ_of_step hstep, Config.run]
  · have hcredit := r.credit_le
    omega

/-- **The parser follows every derivation.** -/
theorem Spells.followed {row : List Symbol} {ts : List Placed} {vs : Values row}
    (h : Spells row ts vs) : Followed row ts vs := by
  induction h with
  | nil =>
    intro stack us r hr
    exact ⟨0, stack, rfl, rfl, hr, Int.le_refl 0⟩
  | @token t row ts vs _ ih =>
    intro stack us r hr
    obtain ⟨q, hq, hr⟩ := hr.advance
    obtain ⟨n, stack', hrun, hcollect, hfinal, hn⟩ :=
      ih (⟨q, .terminal t.token.terminal, t.token.payload, some t.span⟩ :: stack) us r hr
    refine ⟨n + 1, stack', ?_, ?_, hfinal, ?_⟩
    · rw [List.cons_append, Config.run_succ_of_step (Config.step_read hq), hrun]
    · rw [Placed.extent_cons]
      exact Stack.collect_cons hcollect
    · simp only [rowCredit, Symbol.credit, List.length_cons]
      omega
  | @rule r' row ts us' ws vs hrhs hrow ihrhs ihrow =>
    intro stack us r hr
    -- the rule starts here, its phrase is put on the stack, and the row goes on behind it
    have hstart := hr.enter hrow
    obtain ⟨q, hq, hr⟩ := hr.advance
    obtain ⟨m, hphrase, hm⟩ := ihrhs.reduce stack hstart hq
    obtain ⟨n, stack', hrun, hcollect, hfinal, hn⟩ := ihrow
      (⟨q, .nonterminal r'.lhs, r'.build (Placed.extent ts).span ws, Placed.extent ts⟩ :: stack)
      us r hr
    refine ⟨m + n, stack', ?_, ?_, hfinal, ?_⟩
    · rw [List.append_assoc, Config.run_add, hphrase, hrun]
    · rw [Placed.extent_append]
      exact Stack.collect_cons hcollect
    · simp only [rowCredit, Symbol.credit, List.length_append]
      omega

/-! ## The parser and the grammar agree -/

/-- A phrase was made by one of its rules. -/
theorem Spells.exists_rule {n : Nonterminal} {ts : List Placed} {v : n.Value}
    (h : Spells [.nonterminal n] ts (v, ())) :
    ∃ (r : Rule) (vs : Values r.rhs) (hn : r.lhs = n),
      Spells r.rhs ts vs ∧ v = hn ▸ r.build (Placed.extent ts).span vs := by
  cases h with
  | rule r hrhs hnil =>
    cases hnil
    rw [List.append_nil]
    exact ⟨r, _, rfl, hrhs, rfl⟩

/-- Behind a whole program the parser stops. -/
theorem Config.step_eq_none_of_ends {c : Config}
    (hitems : (automaton.state c.stack.state).items = [])
    (hedges : (automaton.state c.stack.state).edges = []) : c.step = none := by
  rw [Option.eq_none_iff_forall_ne_some]
  intro d hstep
  obtain hread | ⟨-, hreduce⟩ := step_eq_some_iff.mp hstep
  · obtain ⟨t, rest, q, -, hq, -⟩ := read?_eq_some_iff.mp hread
    rw [State.target?, hedges] at hq
    cases hq
  · obtain ⟨r, vs, place, below, q, hr, -⟩ := reduce?_eq_some_iff.mp hreduce
    rw [State.finished?, hitems] at hr
    cases hr

/-- A single phrase for the whole program is the result. -/
theorem Config.program?_single {n : Nonterminal} (hn : n = .program) (q : Nat) (v : n.Value)
    (place : Extent) :
    Config.program? ⟨[⟨q, .nonterminal n, v, place⟩], []⟩ =
      some (hn ▸ v : Nonterminal.program.Value) := by
  subst hn
  rfl

/-- **Completeness.** A row of tokens that spells a program is accepted with it. -/
theorem Program.ofTokens_of_spelledBy {ts : List Placed} {p : Program} (h : p.SpelledBy ts) :
    Program.ofTokens ts = .ok p := by
  obtain ⟨r, vs, hprogram, hspells, hp⟩ := h.exists_rule
  obtain ⟨⟨hopens, q, hq, hitems, hedges⟩, -⟩ := automaton_complete
  have hstart : (automaton.state 0).Expects r r.rhs (Placed.lookahead []) :=
    (hopens r (Nonterminal.mem_rules_iff.mpr hprogram)).expects (Lookaheads.contains_single none)
  rw [← hprogram] at hq
  obtain ⟨n, hrun, hn⟩ := hspells.followed.reduce [] hstart hq
  rw [List.append_nil] at hrun
  have hcredit : r.lhs.credit = -2 := by rw [hprogram]; rfl
  -- the bound of the run leaves room for all these steps, and then there are no more
  obtain ⟨k, hk⟩ : ∃ k, 32 * (ts.length + 1) = n + k := ⟨32 * (ts.length + 1) - n, by omega⟩
  have hfinal : Config.run (32 * (ts.length + 1)) ⟨[], ts⟩ = Config.run n ⟨[], ts⟩ := by
    rw [hk, Config.run_add, hrun, Config.run_of_step_none]
    exact Config.step_eq_none_of_ends hitems hedges
  have hresult : (Config.run (32 * (ts.length + 1)) ⟨[], ts⟩).program? = some p := by
    rw [hfinal, hrun, hp, Config.program?_single hprogram]
  simp only [Program.ofTokens, hresult]

/-- **The parser is the grammar.** A row of tokens is accepted with a program exactly if it
has a derivation that builds the program, and all derivations of one row build the same
program. -/
theorem Program.ofTokens_eq_ok_iff_spelledBy (ts : List Placed) :
    (∀ p, Program.ofTokens ts = .ok p ↔ p.SpelledBy ts) ∧
      ∀ p q : Program, p.SpelledBy ts → q.SpelledBy ts → p = q := by
  refine ⟨fun p => ⟨Program.spelledBy_of_ofTokens, Program.ofTokens_of_spelledBy⟩, ?_⟩
  intro p q hp hq
  have hok := Program.ofTokens_of_spelledBy hp
  rw [Program.ofTokens_of_spelledBy hq] at hok
  exact (Except.ok.inj hok).symm

/-- An empty block with a separator behind it: `begin end;`. -/
theorem Program.ofTokens_emptyBlock :
    ∃ ts : List Placed,
      ts = [⟨.word .begin_, ⟨0, 5⟩⟩, ⟨.word .end_, ⟨6, 9⟩⟩, ⟨.mark .semi, ⟨9, 10⟩⟩] ∧
      Program.SpelledBy ⟨[.block ⟨0, 9⟩ []]⟩ ts ∧
      Program.ofTokens ts = .ok ⟨[.block ⟨0, 9⟩ []]⟩ ∧
      ∀ q : Program, q.SpelledBy ts → q = ⟨[.block ⟨0, 9⟩ []]⟩ := by
  refine ⟨_, rfl, ?_⟩
  have hbody := Spells.rule .noStmts .nil (.single ⟨.word .end_, ⟨6, 9⟩⟩)
  have hblock := Spells.reduce .block (.token ⟨.word .begin_, ⟨0, 5⟩⟩ hbody)
  have hstmt := Spells.reduce .firstStmt (.reduce .anyClosed (.reduce .simple hblock))
  have hprogram := Spells.reduce .program
    (.reduce .stmtsSemi (hstmt.cons (.single ⟨.mark .semi, ⟨9, 10⟩⟩)))
  exact ⟨hprogram, ((ofTokens_eq_ok_iff_spelledBy _).1 _).mpr hprogram,
    fun q hq => (ofTokens_eq_ok_iff_spelledBy _).2 q _ hq hprogram⟩

end Scriptling

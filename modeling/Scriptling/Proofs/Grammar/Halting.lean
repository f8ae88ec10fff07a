import Scriptling.Proofs.Grammar.Viability

/-!
# How a run of the parser ends

The steps of a run were bounded along a derivation. A run on tokens that are no program has
no derivation to go by, so here the bound is found from the parser alone. The credit of
what lies on the stack and 32 steps for each token not yet read are the credit of the
parser. Every step takes at least one from it (`Config.credit_step`), and a parser that
follows its automaton owes next to nothing (`Config.Sane.credit_ge`). So it is never the
number of steps that the parser allows itself which ends a run (`Config.halts`).

Where a run halts before some token, it is because of that token and of what was read: the
tokens behind it were not looked at (`Config.run_append`).
-/

namespace Scriptling

/-! ## Runs follow the automaton -/

/-- A finished rule is that of a finished item. -/
theorem State.finished?_eq_some {q : State} {a : Lookahead} {r : Rule}
    (h : q.finished? a = some r) :
    ∃ i ∈ q.items, i.rule = r ∧ i.rest = [] ∧ i.ahead.contains a = true := by
  obtain ⟨i, hfind, hrule⟩ := Option.map_eq_some_iff.mp h
  have hi := List.find?_some hfind
  rw [Bool.and_eq_true, List.isEmpty_iff] at hi
  exact ⟨i, List.mem_of_find?_eq_some hfind, hrule, hi.1, hi.2⟩

/-- The rule that the automaton finds finished is pending with nothing left to wait for. -/
theorem Stack.Path.pending_of_finished {stack : Stack} (h : stack.Path) {a : Lookahead}
    {r : Rule} (hr : (automaton.state stack.state).finished? a = some r) :
    stack.Pending r [] := by
  obtain ⟨i, hi, rfl, hrest, -⟩ := State.finished?_eq_some hr
  rw [← hrest]
  exact h.pending i hi

theorem Lookaheads.eq_none_of_contains {a : Lookahead}
    (h : (single none).contains a = true) : a = none := by
  cases a with
  | none => rfl
  | some t =>
    -- the end of the input has the bit behind those of all terminals
    obtain ⟨hindex, -⟩ := List.getElem?_eq_some_iff.mp (Terminal.all_get_index t)
    have hlt : t.index < 44 := hindex
    rw [contains, single, Nat.testBit_shiftLeft, Bool.and_eq_true, decide_eq_true_eq] at h
    have hge : 44 ≤ t.index := h.1
    omega

/-- A whole program is finished at the end of the input only. -/
theorem State.finished?_program {q : Nat} {a : Lookahead} {r : Rule}
    (h : (automaton.state q).finished? a = some r) (hr : r.lhs = .program) : a = none := by
  obtain ⟨i, hi, rfl, -, ha⟩ := State.finished?_eq_some h
  have hrule : i.rule = .program := by
    have hmem := Nonterminal.mem_rules_iff.mpr hr
    exact List.mem_singleton.mp hmem
  rw [(automaton_founds q hi).2 hrule] at ha
  exact Lookaheads.eq_none_of_contains ha

/-- What taking phrases off the stack leaves is the stack below them. -/
theorem Stack.collect_eq_some {row : List Symbol} {stack below : Stack} {vs : Values row}
    {place : Extent} (h : stack.collect row = some (vs, place, below)) :
    below = stack.drop row.length ∧
      stack.map (·.symbol) = row.reverse ++ below.map (·.symbol) := by
  induction row generalizing below place with
  | nil =>
    obtain ⟨-, -, rfl⟩ : () = vs ∧ none = place ∧ stack = below := by
      simpa [Stack.collect] using h
    exact ⟨rfl, rfl⟩
  | cons s row ih =>
    rw [Stack.collect] at h
    split at h
    case h_2 => cases h
    case h_1 ws place' p stack' hrow =>
      split at h
      case isFalse => cases h
      case isTrue hs =>
        obtain ⟨-, -, rfl⟩ : _ ∧ _ ∧ stack' = below := by simpa using h
        obtain ⟨hdrop, hsymbols⟩ := ih hrow
        constructor
        · rw [List.length_cons, ← List.drop_drop, ← hdrop]
          rfl
        · rw [hsymbols, List.reverse_cons, List.append_assoc, List.map_cons, hs]
          rfl

/-- Behind a whole program the automaton has nothing to do. -/
theorem Config.step_eq_none_of_program {c : Config} (hc : c.stack.Path) {p : Phrase}
    (hstack : c.stack = [p]) (hp : p.symbol = .nonterminal .program) : c.step = none := by
  obtain ⟨⟨-, q, hq, hitems, hedges⟩, -⟩ := automaton_complete
  have hstate : p.state = q := by
    rw [hstack] at hc
    cases hc with
    | push _ _ htarget =>
      rw [hp] at htarget
      exact Option.some.inj (htarget.symm.trans hq)
  have htop : c.stack.state = q := by rw [hstack, Stack.state, hstate]
  refine step_eq_none_of_ends ?_ ?_ <;> rw [htop]
  · exact hitems
  · exact hedges

/-- The parser is where its automaton leads it, and if it has recognised a whole program
then there is nothing besides. -/
structure Config.Sane (c : Config) : Prop where
  /-- the stack follows the automaton -/
  path : c.stack.Path
  /-- a program is all there is -/
  program : ∀ p ∈ c.stack, p.symbol = .nonterminal .program → c.stack = [p] ∧ c.rest = []

namespace Config

theorem Sane.start (ts : List Placed) : Sane ⟨[], ts⟩ :=
  ⟨.nil, fun _ hp => absurd hp List.not_mem_nil⟩

/-- Before a step no program was recognised. -/
theorem Sane.symbol_ne_of_step {c d : Config} (hc : c.Sane) (hstep : c.step = some d) :
    ∀ p ∈ c.stack, p.symbol ≠ .nonterminal .program := by
  intro p hp hprogram
  rw [step_eq_none_of_program hc.path (hc.program p hp hprogram).1 hprogram] at hstep
  cases hstep

/-- A step keeps the parser on its automaton. -/
theorem Sane.step {c d : Config} (hc : c.Sane) (hstep : c.step = some d) : d.Sane := by
  have hbefore := hc.symbol_ne_of_step hstep
  obtain hread | ⟨-, hreduce⟩ := step_eq_some_iff.mp hstep
  · obtain ⟨t, rest, q, hrest, hq, rfl⟩ := read?_eq_some_iff.mp hread
    refine ⟨.push _ hc.path hq, fun p hp hprogram => ?_⟩
    obtain rfl | hp := List.mem_cons.mp hp
    · cases hprogram
    · exact absurd hprogram (hbefore p hp)
  · obtain ⟨r, vs, place, below, q, hr, hcollect, hq, rfl⟩ := reduce?_eq_some_iff.mp hreduce
    obtain ⟨rfl, -⟩ := Stack.collect_eq_some hcollect
    have hbelow := hc.path.drop r.rhs.length
    refine ⟨.push _ hbelow hq, fun p hp hprogram => ?_⟩
    obtain rfl | hp := List.mem_cons.mp hp
    · have hlhs := Symbol.nonterminal.inj hprogram
      have hahead := State.finished?_program hr hlhs
      rw [hlhs] at hq
      rw [hbelow.eq_nil_of_program hq]
      exact ⟨rfl, by simpa [ahead] using hahead⟩
    · exact absurd hprogram (hbefore p (List.mem_of_mem_drop hp))

theorem Sane.run {c : Config} (hc : c.Sane) (fuel : Nat) : (c.run fuel).Sane := by
  induction fuel generalizing c with
  | zero => exact hc
  | succ fuel ih =>
    rcases hstep : c.step with _ | d
    · rw [run_of_step_none hstep]
      exact hc
    · rw [run_succ_of_step hstep]
      exact ih (hc.step hstep)

end Config

/-! ## Every step costs -/

theorem rowCredit_append (row row' : List Symbol) :
    rowCredit (row ++ row') = rowCredit row + rowCredit row' := by
  induction row with
  | nil => simp [rowCredit]
  | cons s row ih => simp [rowCredit, ih, Int.add_assoc]

theorem rowCredit_reverse (row : List Symbol) : rowCredit row.reverse = rowCredit row := by
  induction row with
  | nil => rfl
  | cons s row ih =>
    rw [List.reverse_cons, rowCredit_append, ih, Int.add_comm]
    simp [rowCredit]

/-- What a rule has seen owes at most one step, and none where a phrase is to come. -/
theorem Rule.credit_take (r : Rule) : ∀ k < r.rhs.length + 1,
    -1 ≤ rowCredit (r.rhs.take k) ∧
      ∀ n ∈ Nonterminal.all, r.rhs[k]? = some (.nonterminal n) →
        0 ≤ rowCredit (r.rhs.take k) := by
  cases r <;> decide

namespace Stack

/-- The steps that the phrases on the stack leave over. -/
def credit (stack : Stack) : Int :=
  rowCredit (stack.map (·.symbol))

/-- On a stack with a pending rule, the phrases below those of the rule owe nothing. -/
theorem Pending.credit_ge {stack : Stack} {r : Rule} {rest : List Symbol}
    (h : stack.Pending r rest) : ∃ seen, r.rhs = seen ++ rest ∧ rowCredit seen ≤ stack.credit := by
  induction h with
  | start => exact ⟨[], rfl, Int.le_refl 0⟩
  | @enter stack r rest r' _ ih =>
    obtain ⟨seen, hrhs, hle⟩ := ih
    have hseen : seen.length < r.rhs.length + 1 := by
      rw [hrhs, List.length_append]
      omega
    have hnext : r.rhs[seen.length]? = some (.nonterminal r'.lhs) := by
      rw [hrhs]
      simp
    have hnonneg := (r.credit_take seen.length hseen).2 r'.lhs r'.lhs.mem_all hnext
    rw [hrhs, List.take_left] at hnonneg
    exact ⟨[], rfl, Int.le_trans hnonneg hle⟩
  | push p _ ih =>
    obtain ⟨seen, hrhs, hle⟩ := ih
    refine ⟨seen ++ [p.symbol], by rw [hrhs, List.append_assoc]; rfl, ?_⟩
    rw [rowCredit_append, credit, List.map_cons]
    simp only [rowCredit, credit] at hle ⊢
    omega

/-- A stack with a pending rule owes at most one step. -/
theorem Pending.credit_ge_neg_one {stack : Stack} {r : Rule} {rest : List Symbol}
    (h : stack.Pending r rest) : -1 ≤ stack.credit := by
  obtain ⟨seen, hrhs, hle⟩ := h.credit_ge
  have hseen : seen.length < r.rhs.length + 1 := by
    rw [hrhs, List.length_append]
    omega
  have howed := (r.credit_take seen.length hseen).1
  rw [hrhs, List.take_left] at howed
  omega

end Stack

namespace Config

/-- The steps that the parser has left: those of the stack and 32 for each token ahead. -/
def credit (c : Config) : Int :=
  c.stack.credit + 32 * c.rest.length

/-- **Every step costs.** -/
theorem credit_step {c d : Config} (h : c.step = some d) : d.credit + 1 ≤ c.credit := by
  obtain hread | ⟨-, hreduce⟩ := step_eq_some_iff.mp h
  · obtain ⟨t, rest, q, hrest, -, rfl⟩ := read?_eq_some_iff.mp hread
    simp only [credit, Stack.credit, List.map_cons, rowCredit, Symbol.credit, hrest,
      List.length_cons]
    omega
  · obtain ⟨r, vs, place, below, q, -, hcollect, -, rfl⟩ := reduce?_eq_some_iff.mp hreduce
    obtain ⟨-, hsymbols⟩ := Stack.collect_eq_some hcollect
    have hcredit := r.credit_le
    simp only [credit, Stack.credit, hsymbols, rowCredit_append, rowCredit_reverse,
      List.map_cons, rowCredit, Symbol.credit]
    omega

/-- The parser owes at most two steps. -/
theorem Sane.credit_ge {c : Config} (hc : c.Sane) : -2 ≤ c.credit := by
  have hstack : -2 ≤ c.stack.credit := by
    by_cases hprogram : ∃ p ∈ c.stack.head?, p.symbol = .nonterminal .program
    · obtain ⟨p, hp, hsymbol⟩ := hprogram
      rw [(hc.program p (List.mem_of_mem_head? hp) hsymbol).1]
      simp [Stack.credit, rowCredit, hsymbol, Symbol.credit, Nonterminal.credit]
    · obtain ⟨r, rest, hpending⟩ :=
        hc.path.exists_pending (fun p hp hsymbol => hprogram ⟨p, hp, hsymbol⟩)
      have howed := hpending.credit_ge_neg_one
      omega
  rw [credit]
  omega

/-- A run with enough steps comes to a halt. -/
theorem Sane.run_halts {c : Config} (hc : c.Sane) {fuel : Nat} (hfuel : c.credit + 2 < fuel) :
    (c.run fuel).step = none := by
  induction fuel generalizing c with
  | zero =>
    have howed := hc.credit_ge
    omega
  | succ fuel ih =>
    rcases hstep : c.step with _ | d
    · rw [run_of_step_none hstep]
      exact hstep
    · rw [run_succ_of_step hstep]
      have hcost := credit_step hstep
      exact ih (hc.step hstep) (by omega)

/-- **The parser halts** within the steps it allows itself. -/
theorem halts (ts : List Placed) : (run (32 * (ts.length + 1)) ⟨[], ts⟩).step = none := by
  refine (Sane.start ts).run_halts ?_
  simp only [credit, Stack.credit, List.map_nil, rowCredit]
  omega

/-- A run comes to a halt at one place only. -/
theorem run_eq_run {c : Config} {m n : Nat} (hm : (c.run m).step = none)
    (hn : (c.run n).step = none) : c.run m = c.run n :=
  calc c.run m = (c.run m).run n := (run_of_step_none hm n).symm
    _ = c.run (n + m) := by rw [← run_add, Nat.add_comm]
    _ = (c.run n).run m := run_add n m c
    _ = c.run n := run_of_step_none hn m

/-! ## Nothing behind the next token is looked at -/

/-- To replace phrases, the parser looks at the next token only. -/
theorem reduce?_append (stack : Stack) (t : Placed) (us xs : List Placed) :
    reduce? ⟨stack, t :: us ++ xs⟩ =
      (reduce? ⟨stack, t :: us⟩).map fun d => ⟨d.stack, d.rest ++ xs⟩ := by
  ext d
  rw [Option.map_eq_some_iff]
  constructor
  · intro h
    obtain ⟨r, vs, place, below, q, hr, hcollect, hq, rfl⟩ := reduce?_eq_some_iff.mp h
    exact ⟨_, reduce?_eq_some_iff.mpr ⟨r, vs, place, below, q, hr, hcollect, hq, rfl⟩, rfl⟩
  · rintro ⟨_, h, rfl⟩
    obtain ⟨r, vs, place, below, q, hr, hcollect, hq, rfl⟩ := reduce?_eq_some_iff.mp h
    exact reduce?_eq_some_iff.mpr ⟨r, vs, place, below, q, hr, hcollect, hq, rfl⟩

/-- A step depends on the next token only. -/
theorem step_append (stack : Stack) (t : Placed) (us xs : List Placed) :
    step ⟨stack, t :: us ++ xs⟩ =
      (step ⟨stack, t :: us⟩).map fun d => ⟨d.stack, d.rest ++ xs⟩ := by
  have hread : read? ⟨stack, t :: us ++ xs⟩ =
      (read? ⟨stack, t :: us⟩).map fun d => ⟨d.stack, d.rest ++ xs⟩ := by
    simp only [read?, List.cons_append, Option.map_map, Function.comp_def]
  simp only [step, Option.orElse_eq_orElse, Option.orElse_eq_or, hread, reduce?_append,
    Option.map_or]

/-- A run reads tokens and puts none back. -/
theorem length_rest_run (c : Config) (fuel : Nat) :
    (c.run fuel).rest.length ≤ c.rest.length := by
  induction fuel generalizing c with
  | zero => exact Nat.le_refl _
  | succ fuel ih =>
    rcases hstep : c.step with _ | d
    · simp only [run_of_step_none hstep, Nat.le_refl]
    · have hd : d.rest.length ≤ c.rest.length := by
        obtain hread | ⟨-, hreduce⟩ := step_eq_some_iff.mp hstep
        · obtain ⟨t, rest, q, hrest, -, rfl⟩ := read?_eq_some_iff.mp hread
          simp [hrest]
        · obtain ⟨r, vs, place, below, q, -, -, -, rfl⟩ := reduce?_eq_some_iff.mp hreduce
          exact Nat.le_refl _
      rw [run_succ_of_step hstep]
      exact Nat.le_trans (ih d) hd

/-- **Only what is read matters.** A run that leaves tokens unread does not depend on what is
behind them. -/
theorem run_append {stack stack' : Stack} {us us' : List Placed} {fuel : Nat} (hus : us' ≠ [])
    (xs : List Placed) :
    run fuel ⟨stack, us ++ xs⟩ = ⟨stack', us' ++ xs⟩ ↔ run fuel ⟨stack, us⟩ = ⟨stack', us'⟩ := by
  have hpos := List.length_pos_iff.mpr hus
  induction fuel generalizing stack us with
  | zero => simp [run]
  | succ fuel ih =>
    cases us with
    | nil =>
      -- neither run can leave more than there was
      have hlong := length_rest_run ⟨stack, [] ++ xs⟩ (fuel + 1)
      have hshort := length_rest_run ⟨stack, []⟩ (fuel + 1)
      constructor
      · intro hrun
        rw [hrun] at hlong
        simp only [List.length_append, List.nil_append] at hlong
        omega
      · intro hrun
        simp only [hrun, List.length_nil] at hshort
        omega
    | cons t us =>
      have happend := step_append stack t us xs
      rcases hstep : step ⟨stack, t :: us⟩ with _ | d
      · rw [hstep] at happend
        rw [run_of_step_none hstep, run_of_step_none happend]
        simp only [mk.injEq, List.append_cancel_right_eq]
      · rw [hstep] at happend
        rw [run_succ_of_step hstep, run_succ_of_step happend]
        exact ih

end Config

end Scriptling

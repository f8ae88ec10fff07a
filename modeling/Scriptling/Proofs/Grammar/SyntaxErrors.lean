import Scriptling.Diagnostic
import Scriptling.Proofs.Grammar.Halting

/-!
# Syntax errors are right

A row of tokens that is no program is refused at the right place and with the right advice.

The place is the first one possible: what stands before it begins some program, and
together with the token at that place it begins none (`Program.ofTokens_earliest_error`).
The first half holds because stacks that follow the automaton can be completed; the second,
because the parser would have come to the same halt whatever had followed. A whole program
on the stack with a token behind it would be an obstacle of another kind. The parser never
halts there, since it recognises a program at the end only.

The advice is sound: each terminal that the error lists can stand at that place, and the
token found there is not among them (`Program.ofSource_expected_sound`). The list is made on
the stack as it is after the last reductions, some of which only the bad token had allowed.
Reductions keep to the automaton whatever allowed them, and change nothing about the tokens
read.
-/

namespace Scriptling

/-- Some program begins with these tokens. -/
def Placed.BeginsProgram (ts : List Placed) : Prop :=
  ∃ (more : List Placed) (p : Program), Program.ofTokens (ts ++ more) = .ok p

/-- A stack that follows the automaton and holds no whole program was read from the
beginning of one. -/
theorem Stack.Path.beginsProgram {stack : Stack} {ts : List Placed} (h : stack.Path)
    (hprogram : ∀ p ∈ stack.head?, p.symbol ≠ .nonterminal .program) (hts : stack.Reads ts) :
    Placed.BeginsProgram ts := by
  obtain ⟨r, rest, hpending⟩ := h.exists_pending hprogram
  obtain ⟨us, vs, hus⟩ := Spells.exists_of_row rest
  obtain ⟨more, p, hp⟩ := hpending.completable hts hus
  rw [List.append_assoc] at hp
  exact ⟨us ++ more, p, Program.ofTokens_of_spelledBy hp⟩

/-! ## Where the parser gives up -/

/-- The parser has come to a halt on the input, and not with a program. -/
structure Config.Stuck (input : List Placed) (c : Config) : Prop where
  /-- this is where the run ends -/
  run_eq : Config.run (32 * (input.length + 1)) ⟨[], input⟩ = c
  /-- it has halted -/
  halted : c.step = none
  /-- it has kept to the automaton -/
  path : c.stack.Path
  /-- no program was recognised -/
  unfinished : ∀ p ∈ c.stack.head?, p.symbol ≠ .nonterminal .program
  /-- what was read and what is left make up the input -/
  consistent : c.Consistent input

/-- An error is that of a parser that is stuck. -/
theorem Program.ofTokens_eq_error {ts : List Placed} {e : SyntaxError}
    (h : Program.ofTokens ts = .error e) :
    ∃ c : Config, c.Stuck ts ∧ e = c.obstacle ((ts.getLast?.map (·.span.stop)).getD 0) := by
  have hsane := (Config.Sane.start ts).run (32 * (ts.length + 1))
  have hstart : Config.Consistent ts ⟨[], ts⟩ := ⟨[], .nil, rfl⟩
  simp only [Program.ofTokens] at h
  split at h
  · cases h
  · next hnone =>
    refine ⟨_, ⟨rfl, Config.halts ts, hsane.path, ?_, hstart.run _⟩, (Except.error.inj h).symm⟩
    intro p hp hprogram
    -- a program on the stack is alone there, and would have been the result
    obtain ⟨hstack, hrest⟩ := hsane.program p (List.mem_of_mem_head? hp) hprogram
    generalize Config.run (32 * (ts.length + 1)) ⟨[], ts⟩ = c at hnone hstack hrest
    obtain ⟨stack, rest⟩ := c
    obtain ⟨q, s, v, place⟩ := p
    subst hstack hrest hprogram
    cases hnone

/-- With a token left there is no result. -/
theorem Config.program?_cons (stack : Stack) (t : Placed) (rest : List Placed) :
    Config.program? ⟨stack, t :: rest⟩ = none := by
  unfold Config.program?
  split
  · next heq => cases heq
  · rfl

/-- At the end of the input, the end is the obstacle. -/
theorem Config.obstacle_nil {c : Config} (hrest : c.rest = []) (stop : Nat) :
    c.obstacle stop = ⟨.endOfInput stop, c.expected⟩ := by
  obtain ⟨stack, rest⟩ := c
  obtain rfl : rest = [] := hrest
  rfl

namespace Config.Stuck

variable {input : List Placed} {c : Config}

/-- A token that the parser is stuck on is not behind a whole program. -/
theorem obstacle_cons (h : c.Stuck input) {t : Placed} {after : List Placed}
    (hrest : c.rest = t :: after) (stop : Nat) :
    c.obstacle stop = ⟨.token t, c.expected⟩ := by
  have hunfinished := h.unfinished
  obtain ⟨stack, rest⟩ := c
  obtain rfl : rest = t :: after := hrest
  unfold obstacle
  split
  · next heq => cases heq
  · next hstack => exact absurd rfl (hunfinished _ (by rw [hstack]; rfl))
  · next heq _ => rw [(List.cons.inj heq).1]

/-- What was read begins a program. -/
theorem exists_before (h : c.Stuck input) :
    ∃ before, c.stack.Reads before ∧ before ++ c.rest = input ∧ Placed.BeginsProgram before := by
  obtain ⟨before, hreads, hinput⟩ := h.consistent
  exact ⟨before, hreads, hinput, h.path.beginsProgram h.unfinished hreads⟩

/-- With the token that it stands before, what was read begins no program. -/
theorem not_beginsProgram {before after : List Placed} {t : Placed} (h : c.Stuck input)
    (hinput : before ++ t :: after = input) (hrest : c.rest = t :: after) :
    ¬ Placed.BeginsProgram (before ++ [t]) := by
  rintro ⟨more, p, hp⟩
  obtain ⟨stack, rest⟩ := c
  obtain rfl : rest = t :: after := hrest
  -- the run is the same on the tokens up to `t`, and so with other tokens behind `t`
  have hrun : run (32 * (input.length + 1)) ⟨[], (before ++ [t]) ++ after⟩ =
      ⟨stack, [t] ++ after⟩ := by
    rw [List.append_assoc]
    exact hinput ▸ h.run_eq
  have hshort := (run_append (by simp) after).mp hrun
  have hother := (run_append (by simp) more).mpr hshort
  have hhalted : step ⟨stack, [t] ++ more⟩ = none := by
    have hstep := step_append stack t [] after
    rw [List.singleton_append, h.halted, eq_comm, Option.map_eq_none_iff] at hstep
    rw [step_append stack t [] more, hstep, Option.map_none]
  have hend := run_eq_run (by rw [hother]; exact hhalted) (halts (before ++ [t] ++ more))
  simp only [Program.ofTokens, ← hend, hother, List.singleton_append, program?_cons] at hp
  cases hp

end Config.Stuck

/-- No tokens are the program without statements. -/
theorem Program.ofTokens_nil : Program.ofTokens [] = .ok ⟨[]⟩ :=
  Program.ofTokens_of_spelledBy (.reduce .program (.reduce .noStmts .nil))

/-- A parenthesis that is not closed: `x := (1;`. The semicolon can follow an expression
elsewhere, so the parser reduces the `1` to one before it notices. -/
theorem Program.ofTokens_unclosed :
    Program.ofTokens [⟨.name "x", ⟨0, 1⟩⟩, ⟨.mark .assign, ⟨2, 4⟩⟩, ⟨.mark .lparen, ⟨5, 6⟩⟩,
      ⟨.int 1, ⟨6, 7⟩⟩, ⟨.mark .semi, ⟨7, 8⟩⟩] =
    .error ⟨.token ⟨.mark .semi, ⟨7, 8⟩⟩, [.mark .rparen]⟩ :=
  ofTokens_eq_error_of_refusal? automaton_facts.2.2

/-- A name by itself: an assignment is missing. -/
theorem Program.ofTokens_name :
    Program.ofTokens [⟨.name "x", ⟨0, 1⟩⟩] = .error ⟨.endOfInput 1, [.mark .assign]⟩ :=
  ofTokens_eq_error_of_refusal? automaton_facts.2.1

/-- **Earliest error.** A row of tokens that is refused is refused in one of two ways. Either
a token does not fit: the tokens before it begin a program, and with it they begin none. Or
the end does not fit: the whole row can be continued to a program, and the place of the
error is the byte behind the last token, if there are offsets for it. No other obstacle is
met: no token behind a whole program, nothing that is no token, and no refusal of a rule. -/
theorem Program.ofTokens_earliest_error {ts : List Placed} {e : SyntaxError}
    (h : Program.ofTokens ts = .error e) :
    ((∃ i t, ts[i]? = some t ∧ e.found = .token t ∧ e.span = t.span ∧ e.place? = some t.span ∧
      Placed.BeginsProgram (ts.take i) ∧ ¬ Placed.BeginsProgram (ts.take (i + 1))) ∨
    ∃ last, ts.getLast? = some last ∧ e.found = .endOfInput last.span.stop ∧
      e.span = ⟨last.span.stop, last.span.stop + 1⟩ ∧
      e.place? = Span.ofByte? last.span.stop ∧
      ∃ more p, more ≠ [] ∧ Program.ofTokens (ts ++ more) = .ok p) ∧
    (∀ t, e.found ≠ .extra t) ∧ (∀ location, e.found ≠ .notToken location) ∧
      ∀ words, e.found ≠ .refused words := by
  obtain ⟨c, hstuck, he⟩ := ofTokens_eq_error h
  obtain ⟨before, -, hinput, more, p, hp⟩ := hstuck.exists_before
  rcases hrest : c.rest with _ | ⟨t, after⟩
  · rw [hrest, List.append_nil] at hinput
    subst hinput
    have hmore : more ≠ [] := by
      rintro rfl
      rw [List.append_nil, h] at hp
      cases hp
    obtain ⟨last, hlast⟩ : ∃ last, before.getLast? = some last := by
      rw [← Option.isSome_iff_exists, List.getLast?_isSome]
      rintro rfl
      rw [ofTokens_nil] at h
      cases h
    rw [hlast, Config.obstacle_nil hrest] at he
    subst he
    exact ⟨Or.inr ⟨last, hlast, rfl, rfl, rfl, more, p, hmore, hp⟩, nofun, nofun, nofun⟩
  · rw [hrest] at hinput
    have hnot := hstuck.not_beginsProgram hinput hrest
    subst hinput
    rw [hstuck.obstacle_cons hrest] at he
    subst he
    refine ⟨Or.inl ⟨before.length, t, by simp, rfl, rfl, rfl, ?_, ?_⟩, nofun, nofun, nofun⟩
    · rw [List.take_left]
      exact ⟨more, p, hp⟩
    · rw [List.take_length_add_append]
      exact hnot

/-- The tokens up to the `1` of `x := (1;` begin a program, and with the semicolon none. -/
theorem Program.ofTokens_earliest_error_unclosed :
    ∃ (ts : List Placed) (e : SyntaxError), Program.ofTokens ts = .error e ∧
      ts = [⟨.name "x", ⟨0, 1⟩⟩, ⟨.mark .assign, ⟨2, 4⟩⟩, ⟨.mark .lparen, ⟨5, 6⟩⟩,
        ⟨.int 1, ⟨6, 7⟩⟩, ⟨.mark .semi, ⟨7, 8⟩⟩] ∧
      ((∃ i t, ts[i]? = some t ∧ e.found = .token t ∧ e.span = t.span ∧ e.place? = some t.span ∧
        Placed.BeginsProgram (ts.take i) ∧ ¬ Placed.BeginsProgram (ts.take (i + 1))) ∨
      ∃ last, ts.getLast? = some last ∧ e.found = .endOfInput last.span.stop ∧
        e.span = ⟨last.span.stop, last.span.stop + 1⟩ ∧
        e.place? = Span.ofByte? last.span.stop ∧
        ∃ more p, more ≠ [] ∧ Program.ofTokens (ts ++ more) = .ok p) ∧
      (∀ t, e.found ≠ .extra t) ∧ (∀ location, e.found ≠ .notToken location) ∧
        ∀ words, e.found ≠ .refused words :=
  ⟨_, _, ofTokens_unclosed, rfl, ofTokens_earliest_error ofTokens_unclosed⟩

/-! ## What could have stood there -/

theorem Stack.headD_states (stack : Stack) : (stack.map (·.state)).headD 0 = stack.state := by
  cases stack <;> rfl

/-- **Trial.** If the automaton comes to read a terminal from the states on a stack, then the
parser can bring the tokens of the stack into a form where it reads it. -/
theorem Stack.Path.exists_of_canRead {t : Terminal} {fuel : Nat} {states : List Nat}
    {stack : Stack} {ts : List Placed} (hpath : stack.Path) (hts : stack.Reads ts)
    (hstates : states = stack.map (·.state)) (h : automaton.canRead t fuel states = true) :
    ∃ (stack' : Stack) (q : Nat), stack'.Path ∧ stack'.Reads ts ∧
      (automaton.state stack'.state).target? (.terminal t) = some q := by
  -- the definition looks at states only; the stack is carried along the trial beside them
  fun_induction automaton.canRead t fuel states generalizing stack
  case case1 | case3 | case4 => cases h
  case case2 fuel states top q hq =>
    have htop : top = automaton.state stack.state := by
      rw [← stack.headD_states, ← hstates]
    rw [htop] at hq
    exact ⟨stack, q, hpath, hts, hq⟩
  case case5 fuel states top _ r hr below q hgoto ih =>
    have htop : top = automaton.state stack.state := by
      rw [← stack.headD_states, ← hstates]
    have hbelow : below = (stack.drop r.rhs.length).map (·.state) := by
      rw [List.map_drop, ← hstates]
    rw [htop] at hr
    rw [hbelow, Stack.headD_states] at hgoto
    -- the finished rule is pending, so its phrases lie there and spell its tokens
    obtain ⟨vs, place, hcollect⟩ := (hpath.pending_of_finished hr).collect
    obtain ⟨us, ws, rfl, hunder, hspells, rfl⟩ := hts.collect hcollect
    let p : Phrase :=
      ⟨q, .nonterminal r.lhs, r.build (Placed.extent ws).span vs, Placed.extent ws⟩
    have hpath' : Stack.Path (p :: stack.drop r.rhs.length) := .push p (hpath.drop _) hgoto
    have hreads : Stack.Reads (p :: stack.drop r.rhs.length) (us ++ ws) :=
      hunder.push p (hspells.reduce r) rfl
    exact ih hpath' hreads (by rw [hbelow]; rfl) h

/-- A terminal that can be read continues what was read to the beginning of a program. -/
theorem Stack.Path.beginsProgram_of_canRead {fuel : Nat} {stack : Stack} {ts : List Placed}
    (hpath : stack.Path) (hts : stack.Reads ts) (k : Placed)
    (h : automaton.canRead k.token.terminal fuel (stack.map (·.state)) = true) :
    Placed.BeginsProgram (ts ++ [k]) := by
  obtain ⟨stack', q, hpath', hreads, hq⟩ := hpath.exists_of_canRead hts rfl h
  let p : Phrase := ⟨q, .terminal k.token.terminal, k.token.payload, some k.span⟩
  have hread : Stack.Path (p :: stack') := .push p hpath' hq
  refine hread.beginsProgram ?_ (hreads.push p (Spells.single k) rfl)
  intro p' hp'
  obtain rfl := Option.some.inj hp'
  exact Symbol.noConfusion

/-- The terminal on which the parser is stuck cannot be read: to read it, or to reduce and
try again, would have been a step. -/
theorem Config.Stuck.canRead_eq_false {input after : List Placed} {c : Config} {t : Placed}
    (h : c.Stuck input) (hrest : c.rest = t :: after) {states : List Nat}
    (hstates : states = c.stack.map (·.state)) (fuel : Nat) :
    automaton.canRead t.token.terminal fuel states = false := by
  have hahead : c.ahead = some t.token.terminal := by rw [Config.ahead, hrest]; rfl
  fun_cases automaton.canRead t.token.terminal fuel states
  case case1 | case3 | case4 => rfl
  case case2 fuel q top hq =>
    have htop : top = automaton.state c.stack.state := by
      rw [← Stack.headD_states, ← hstates]
    rw [htop] at hq
    have hread := (read?_eq_some_iff (c := c)).mpr ⟨t, after, q, hrest, hq, rfl⟩
    exact absurd (step_eq_some_iff.mpr (Or.inl hread)) (by rw [h.halted]; simp)
  case case5 fuel r q top hnone hr below hgoto =>
    have htop : top = automaton.state c.stack.state := by
      rw [← Stack.headD_states, ← hstates]
    have hbelow : below = (c.stack.drop r.rhs.length).map (·.state) := by
      rw [List.map_drop, ← hstates]
    rw [htop] at hnone hr
    rw [hbelow, Stack.headD_states] at hgoto
    obtain ⟨vs, place, hcollect⟩ := (h.path.pending_of_finished hr).collect
    have hread : c.read? = none := by
      refine read?_eq_none (fun s hs => ?_)
      rw [hahead] at hs
      obtain rfl := Option.some.inj hs
      exact hnone
    rw [← hahead] at hr
    have hreduce := (reduce?_eq_some_iff (c := c)).mpr
      ⟨r, vs, place, _, q, hr, hcollect, hgoto, rfl⟩
    exact absurd (step_eq_some_iff.mpr (Or.inr ⟨hread, hreduce⟩)) (by rw [h.halted]; simp)

/-- Different terminals are named differently. -/
theorem Terminal.nodup_texts : (Terminal.all.map Terminal.text).Nodup := by
  decide +kernel

/-- The obstacle is met directly behind these tokens of the row. -/
def Obstacle.Behind (o : Obstacle) (before tokens : List Placed) : Prop :=
  match o with
  | .token t => ∃ after, tokens = before ++ t :: after
  | .extra t => ∃ after, tokens = before ++ t :: after
  | .endOfInput _ => tokens = before
  | .notToken _ | .refused _ => False

/-- The terminals that an error lists have different names. -/
theorem Config.nodup_expected (c : Config) : (c.expected.map Terminal.text).Nodup :=
  Terminal.nodup_texts.sublist (List.filter_sublist.map Terminal.text)

/-- **Sound advice.** Each terminal that a syntax error lists can follow the tokens before the
error in some program, the terminal of the token found there is not listed, and nothing is
listed twice. -/
theorem Program.ofSource_expected_sound {source : String} {e : SyntaxError}
    (h : Program.ofSource source = .error (.parse e)) :
    ∃ tokens before, scan source.toList = .ok tokens ∧ e.found.Behind before tokens ∧
      (∀ t ∈ e.expected,
        ∃ k : Placed, k.token.terminal = t ∧ Placed.BeginsProgram (before ++ [k])) ∧
      (∀ k, e.found = .token k → k.token.terminal ∉ e.expected) ∧
      (e.expected.map Terminal.text).Nodup := by
  obtain ⟨tokens, hscan, herror⟩ := ofSource_eq_parse_iff.mp h
  obtain ⟨c, hstuck, he⟩ := ofTokens_eq_error herror
  obtain ⟨before, hreads, hinput, -⟩ := hstuck.exists_before
  have hsound : ∀ t ∈ c.expected,
      ∃ k : Placed, k.token.terminal = t ∧ Placed.BeginsProgram (before ++ [k]) := by
    intro t ht
    have hread := (List.mem_filter.mp ht).2
    obtain ⟨k, rfl⟩ := t.exists_token
    exact ⟨k, rfl, hstuck.path.beginsProgram_of_canRead hreads k hread⟩
  rcases hrest : c.rest with _ | ⟨t, after⟩
  · rw [hrest, List.append_nil] at hinput
    rw [Config.obstacle_nil hrest] at he
    subst he
    exact ⟨tokens, before, hscan, hinput.symm, hsound, nofun, c.nodup_expected⟩
  · rw [hrest] at hinput
    rw [hstuck.obstacle_cons hrest] at he
    subst he
    refine ⟨tokens, before, hscan, ⟨after, hinput.symm⟩, hsound, ?_, c.nodup_expected⟩
    intro k hk hlisted
    obtain rfl := Obstacle.token.inj hk
    have hread := (List.mem_filter.mp hlisted).2
    rw [hstuck.canRead_eq_false hrest rfl] at hread
    cases hread

/-- For `x := (1;` a closing parenthesis is advised. -/
theorem Program.ofSource_expected_sound_unclosed :
    ∃ e : SyntaxError, Program.ofSource "x := (1;" = .error (.parse e) ∧
      e.expected = [.mark .rparen] ∧
      ∃ tokens before, scan "x := (1;".toList = .ok tokens ∧ e.found.Behind before tokens ∧
        (∀ t ∈ e.expected,
          ∃ k : Placed, k.token.terminal = t ∧ Placed.BeginsProgram (before ++ [k])) ∧
        (∀ k, e.found = .token k → k.token.terminal ∉ e.expected) ∧
        (e.expected.map Terminal.text).Nodup := by
  have hscan : scan "x := (1;".toList = .ok [⟨.name "x", ⟨0, 1⟩⟩, ⟨.mark .assign, ⟨2, 4⟩⟩,
      ⟨.mark .lparen, ⟨5, 6⟩⟩, ⟨.int 1, ⟨6, 7⟩⟩, ⟨.mark .semi, ⟨7, 8⟩⟩] := by
    with_unfolding_all rfl
  have herror : Program.ofSource "x := (1;" =
      .error (.parse ⟨.token ⟨.mark .semi, ⟨7, 8⟩⟩, [.mark .rparen]⟩) :=
    ofSource_eq_parse_iff.mpr ⟨_, hscan, ofTokens_unclosed⟩
  exact ⟨_, herror, rfl, ofSource_expected_sound herror⟩

end Scriptling

import Scriptling.Grammar.Parse
import Scriptling.Proofs.Grammar.Derivation

/-!
# The parser accepts nothing but programs

Whatever the automaton says, what lies on the parser's stack was derived from the tokens
that were read (`Stack.Reads`). Reading a token and replacing the phrases of a rule both
keep this, because taking phrases off the stack compares their symbols with the rule
(`Stack.Reads.collect`). So a single phrase for the whole program, with no token left, is
a derivation of the whole row.
-/

namespace Scriptling

/-! ## What a step does -/

namespace Config

/-- Reading: there is a token, and the automaton has an edge for it. -/
theorem read?_eq_some_iff {c d : Config} :
    c.read? = some d ↔ ∃ t rest q, c.rest = t :: rest ∧
      (automaton.state c.stack.state).target? (.terminal t.token.terminal) = some q ∧
      d = ⟨⟨q, .terminal t.token.terminal, t.token.payload, some t.span⟩ :: c.stack, rest⟩ := by
  obtain ⟨stack, rest⟩ := c
  cases rest with
  | nil => simp [read?]
  | cons t rest =>
    simp only [read?, Option.map_eq_some_iff]
    constructor
    · rintro ⟨q, hq, rfl⟩
      exact ⟨t, rest, q, rfl, hq, rfl⟩
    · rintro ⟨_, _, q, hrest, hq, rfl⟩
      obtain ⟨rfl, rfl⟩ := List.cons.inj hrest
      exact ⟨q, hq, rfl⟩

/-- Reducing: the automaton finds a finished rule, the phrases of the rule are on top of the
stack, and below them there is an edge for the phrase of the left side. -/
theorem reduce?_eq_some_iff {c d : Config} :
    c.reduce? = some d ↔ ∃ r vs place below q,
      (automaton.state c.stack.state).finished? c.ahead = some r ∧
      c.stack.collect r.rhs = some (vs, place, below) ∧
      (automaton.state below.state).target? (.nonterminal r.lhs) = some q ∧
      d = ⟨⟨q, .nonterminal r.lhs, r.build place.span vs, place⟩ :: below, c.rest⟩ := by
  simp only [reduce?, Option.bind_eq_bind, Option.pure_def, Option.bind_eq_some_iff,
    Option.some.injEq, Prod.exists]
  constructor
  · rintro ⟨r, hr, vs, place, below, hcollect, q, hq, rfl⟩
    exact ⟨r, vs, place, below, q, hr, hcollect, hq, rfl⟩
  · rintro ⟨r, vs, place, below, q, hr, hcollect, hq, rfl⟩
    exact ⟨r, hr, vs, place, below, hcollect, q, hq, rfl⟩

/-- The parser reads where it can and reduces only where it cannot read. -/
theorem step_eq_some_iff {c d : Config} :
    c.step = some d ↔ c.read? = some d ∨ c.read? = none ∧ c.reduce? = some d := by
  simp only [step, Option.orElse_eq_orElse, Option.orElse_eq_or, Option.or_eq_some_iff]

end Config

/-! ## What lies on the stack -/

/-- The tokens that were read are the tokens of the phrases on the stack, each phrase with
a derivation of its value and with the place of its tokens. -/
inductive Stack.Reads : Stack → List Placed → Prop
  /-- nothing was read -/
  | nil : Stack.Reads [] []
  /-- the tokens of the last phrase come last -/
  | push {stack : Stack} {ts us : List Placed} (p : Phrase) :
      Stack.Reads stack ts → Spells [p.symbol] us (p.value, ()) → p.place = Placed.extent us →
      Stack.Reads (p :: stack) (ts ++ us)

/-- Taking the phrases of a row off the stack takes their tokens from the end of what was
read, and these tokens spell the row. -/
theorem Stack.Reads.collect {row : List Symbol} {stack below : Stack} {ts : List Placed}
    {vs : Values row} {place : Extent} (hreads : stack.Reads ts)
    (hcollect : stack.collect row = some (vs, place, below)) :
    ∃ us ws, ts = us ++ ws ∧ below.Reads us ∧ Spells row ws vs ∧ place = Placed.extent ws := by
  induction row generalizing below place with
  | nil =>
    obtain ⟨-, rfl, rfl⟩ : () = vs ∧ none = place ∧ stack = below := by
      simpa [Stack.collect] using hcollect
    exact ⟨ts, [], (List.append_nil ts).symm, hreads, .nil, rfl⟩
  | cons s row ih =>
    rw [Stack.collect] at hcollect
    split at hcollect
    case h_2 => cases hcollect
    case h_1 ws place' p stack' hrow =>
      split at hcollect
      case isFalse => cases hcollect
      case isTrue hs =>
        obtain ⟨rfl, rfl, rfl⟩ : (hs ▸ p.value, ws) = vs ∧ p.place.join place' = place ∧
            stack' = below := by
          simpa using hcollect
        obtain ⟨us, us', rfl, hbelow, hspells, rfl⟩ := ih hrow
        -- the phrase that is taken off last has the tokens before those of the others
        cases hbelow with
        | push p hbelow hp hplace =>
          subst hs
          refine ⟨_, _, List.append_assoc .., hbelow, hp.cons hspells, ?_⟩
          rw [hplace, Placed.extent_append]

namespace Config

/-- What was read and what is left make up the whole input. -/
def Consistent (input : List Placed) (c : Config) : Prop :=
  ∃ ts, c.stack.Reads ts ∧ ts ++ c.rest = input

theorem Consistent.read {input : List Placed} {c d : Config} (hc : c.Consistent input)
    (hread : c.read? = some d) : d.Consistent input := by
  obtain ⟨ts, hreads, rfl⟩ := hc
  obtain ⟨t, rest, q, hrest, -, rfl⟩ := read?_eq_some_iff.mp hread
  refine ⟨ts ++ [t], hreads.push _ (Spells.single t) rfl, ?_⟩
  rw [hrest, List.append_assoc]
  rfl

theorem Consistent.reduce {input : List Placed} {c d : Config} (hc : c.Consistent input)
    (hreduce : c.reduce? = some d) : d.Consistent input := by
  obtain ⟨ts, hreads, rfl⟩ := hc
  obtain ⟨r, vs, place, below, q, -, hcollect, -, rfl⟩ := reduce?_eq_some_iff.mp hreduce
  obtain ⟨us, ws, rfl, hbelow, hspells, rfl⟩ := hreads.collect hcollect
  exact ⟨us ++ ws, hbelow.push _ (hspells.reduce r) rfl, rfl⟩

/-- A step keeps the parser consistent with its input. -/
theorem Consistent.step {input : List Placed} {c d : Config} (hc : c.Consistent input)
    (hstep : c.step = some d) : d.Consistent input := by
  obtain hread | ⟨-, hreduce⟩ := step_eq_some_iff.mp hstep
  · exact hc.read hread
  · exact hc.reduce hreduce

/-- So does a run. -/
theorem Consistent.run {input : List Placed} {c : Config} (hc : c.Consistent input)
    (fuel : Nat) : (c.run fuel).Consistent input := by
  induction fuel generalizing c with
  | zero => exact hc
  | succ fuel ih =>
    rw [Config.run]
    split
    · exact hc
    · next d hstep => exact ih (hc.step hstep)

/-- A program that a consistent parser holds is spelled by the whole input. -/
theorem Consistent.program {input : List Placed} {c : Config} {p : Program}
    (hc : c.Consistent input) (hp : c.program? = some p) : p.SpelledBy input := by
  obtain ⟨ts, hreads, rfl⟩ := hc
  unfold program? at hp
  split at hp
  case h_2 => cases hp
  case h_1 =>
    obtain rfl := Option.some.inj hp
    cases hreads with
    | push _ hnil hspells =>
      cases hnil
      simpa [Program.SpelledBy] using hspells

end Config

/-- **Soundness.** An accepted row of tokens spells the program that is returned. -/
theorem Program.spelledBy_of_ofTokens {ts : List Placed} {p : Program}
    (h : Program.ofTokens ts = .ok p) : p.SpelledBy ts := by
  have hstart : Config.Consistent ts ⟨[], ts⟩ := ⟨[], .nil, rfl⟩
  simp only [Program.ofTokens] at h
  split at h
  · next q hq =>
    obtain rfl := Except.ok.inj h
    exact (hstart.run _).program hq
  · cases h

end Scriptling

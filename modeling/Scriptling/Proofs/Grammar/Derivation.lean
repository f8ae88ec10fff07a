import Scriptling.Grammar.Rule

/-!
# Derivations

What the grammar says, without a parser: a row of tokens *spells* a row of symbols, and
the values of the symbols come with it (`Spells`). A token spells its own terminal. A rule
puts the tokens of its right side together and builds the value of its left side from the
values of the parts.

The place of a phrase is a matter of its tokens alone: it starts where the first one
starts and stops where the last one stops (`Placed.extent`). A rule builds its node at
that place.

The grammar may leave open how a row of tokens is to be divided; nothing here says that
two derivations of one row agree.
-/

namespace Scriptling

/-- The place of a row of tokens: from the start of the first to the stop of the last. -/
def Placed.extent (ts : List Placed) : Extent :=
  match ts.head?, ts.getLast? with
  | some a, some b => some ⟨a.span.start, b.span.stop⟩
  | _, _ => none

@[simp] theorem Placed.extent_nil : Placed.extent [] = none := rfl

/-- The place of two rows that follow one another is made of their places. -/
theorem Placed.extent_append (ts us : List Placed) :
    Placed.extent (ts ++ us) = (Placed.extent ts).join (Placed.extent us) := by
  rcases ts with _ | ⟨t, ts⟩
  · rfl
  rcases us with _ | ⟨u, us⟩
  · simp
  · -- the last token is one of the second row, which is not empty
    have hlast : (t :: ts ++ u :: us).getLast? = (u :: us).getLast? := by
      rw [List.getLast?_append, List.getLast?_cons, Option.some_or]
    rw [Placed.extent, hlast]
    simp [Placed.extent, Extent.join, List.getLast?_cons]

theorem Placed.extent_cons (t : Placed) (ts : List Placed) :
    Placed.extent (t :: ts) = Extent.join (some t.span) (Placed.extent ts) :=
  Placed.extent_append [t] ts

/-- **Derivation.** `Spells row ts vs`: the tokens `ts` can be divided along the symbols of
`row` so that each symbol is derived from its share, and `vs` are the values that the rules
used build. -/
inductive Spells : (row : List Symbol) → List Placed → Values row → Prop
  /-- no tokens for no symbols -/
  | nil : Spells [] [] ()
  /-- a token is a phrase by itself -/
  | token (t : Placed) {row : List Symbol} {us : List Placed} {vs : Values row} :
      Spells row us vs →
      Spells (.terminal t.token.terminal :: row) (t :: us) (t.token.payload, vs)
  /-- a rule makes one phrase of the phrases on its right side -/
  | rule (r : Rule) {row : List Symbol} {ts us : List Placed} {ws : Values r.rhs}
      {vs : Values row} :
      Spells r.rhs ts ws → Spells row us vs →
      Spells (.nonterminal r.lhs :: row) (ts ++ us)
        (r.build (Placed.extent ts).span ws, vs)

/-- The program is a value that the grammar gives to the tokens. -/
def Program.SpelledBy (p : Program) (ts : List Placed) : Prop :=
  Spells [.nonterminal .program] ts (p, ())

namespace Spells

/-- The derivation of one symbol, put in front of that of a row. -/
theorem cons {s : Symbol} {v : s.Value} {row : List Symbol} {vs : Values row}
    {ts us : List Placed} (hs : Spells [s] ts (v, ())) (hrow : Spells row us vs) :
    Spells (s :: row) (ts ++ us) (v, vs) := by
  cases hs with
  | token t hnil =>
    cases hnil
    exact .token t hrow
  | rule r hrhs hnil =>
    cases hnil
    rw [List.append_nil]
    exact .rule r hrhs hrow

/-- A single token spells its terminal. -/
theorem single (t : Placed) : Spells [.terminal t.token.terminal] [t] (t.token.payload, ()) :=
  .token t .nil

/-- What spells the right side of a rule spells its left side. -/
theorem reduce (r : Rule) {ts : List Placed} {vs : Values r.rhs} (h : Spells r.rhs ts vs) :
    Spells [.nonterminal r.lhs] ts (r.build (Placed.extent ts).span vs, ()) := by
  have hrule := Spells.rule r h Spells.nil
  rwa [List.append_nil] at hrule

end Spells

end Scriptling

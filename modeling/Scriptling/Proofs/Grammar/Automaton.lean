import Scriptling.Grammar.Parse
import Scriptling.Proofs.Grammar.Lookahead

/-!
# What the automaton provides

The automaton was computed from the grammar, and nothing about the way it was computed
matters here. What matters is, first, that no item in any state is let down
(`Automaton.Serves`):

* an item that waits for a symbol has an edge for it, to a state where the item has come
  one further;
* an item that waits for a phrase has all rules of the phrase beside it, with every
  lookahead that may follow the phrase there;
* an item that is finished is the one that its lookaheads select, and the state reads none
  of these lookaheads.

The last clause says that the grammar has no conflict. Second, the states must not claim
too much (`Automaton.Sound`):

* an item that has begun comes over every edge to its state from an item of the state before;
* an item that has not begun belongs to a phrase that another item of the state waits for;
* an edge belongs to an item that waits for its symbol.

These are closed facts about one automaton, which the kernel computes
(`automaton_facts`). The lemmas behind them turn the first into what a parser
may expect of a state (`State.Expects`).
-/

namespace Scriptling

/-! ## Items that are served -/

/-- The state has an item of the rule with this rest and at least these lookaheads. -/
def State.Covers (q : State) (r : Rule) (rest : List Symbol) (ahead : Lookaheads) : Prop :=
  ∃ i ∈ q.items, i.rule = r ∧ i.rest = rest ∧ ahead.subset i.ahead = true

instance (q : State) (r : Rule) (rest : List Symbol) (ahead : Lookaheads) :
    Decidable (q.Covers r rest ahead) :=
  inferInstanceAs
    (Decidable (∃ i ∈ q.items, i.rule = r ∧ i.rest = rest ∧ ahead.subset i.ahead = true))

/-- All rules of the phrase may start in the state, with at least these lookaheads. -/
def State.Opens (q : State) (n : Nonterminal) (ahead : Lookaheads) : Prop :=
  ∀ r ∈ n.rules, q.Covers r r.rhs ahead

instance (q : State) (n : Nonterminal) (ahead : Lookaheads) : Decidable (q.Opens n ahead) :=
  inferInstanceAs (Decidable (∀ r ∈ n.rules, q.Covers r r.rhs ahead))

/-- Each of the lookaheads selects the finished rule and is not read. -/
def State.Finishes (q : State) (r : Rule) (ahead : Lookaheads) : Prop :=
  ∀ a ∈ Lookahead.all, ahead.contains a = true →
    q.finished? a = some r ∧ ∀ t ∈ a, q.target? (.terminal t) = none

instance (q : State) (r : Rule) (ahead : Lookaheads) : Decidable (q.Finishes r ahead) :=
  inferInstanceAs (Decidable (∀ a ∈ Lookahead.all, ahead.contains a = true →
    q.finished? a = some r ∧ ∀ t ∈ a, q.target? (.terminal t) = none))

namespace Automaton

/-- The edge for the symbol leads to a state where the rule has come one further. -/
def Advances (a : Automaton) (q : State) (s : Symbol) (r : Rule) (rest : List Symbol)
    (ahead : Lookaheads) : Prop :=
  ∃ q' ∈ q.target? s, (a.state q').Covers r rest ahead

instance (a : Automaton) (q : State) (s : Symbol) (r : Rule) (rest : List Symbol)
    (ahead : Lookaheads) : Decidable (a.Advances q s r rest ahead) :=
  inferInstanceAs (Decidable (∃ q' ∈ q.target? s, (a.state q').Covers r rest ahead))

/-- The automaton does for an item in the state what its place in the rule asks for. -/
def Serves (a : Automaton) (q : State) (i : Item) : Prop :=
  match i.rest with
  | [] => q.Finishes i.rule i.ahead
  | .terminal t :: rest => a.Advances q (.terminal t) i.rule rest i.ahead
  | .nonterminal n :: rest =>
    a.Advances q (.nonterminal n) i.rule rest i.ahead ∧ q.Opens n (firsts.ahead rest i.ahead)

instance (a : Automaton) (q : State) (i : Item) : Decidable (a.Serves q i) :=
  match h : i.rest with
  | [] => decidable_of_iff (q.Finishes i.rule i.ahead) (by rw [Serves, h])
  | .terminal t :: rest =>
    decidable_of_iff (a.Advances q (.terminal t) i.rule rest i.ahead) (by rw [Serves, h])
  | .nonterminal n :: rest =>
    decidable_of_iff (a.Advances q (.nonterminal n) i.rule rest i.ahead ∧
      q.Opens n (firsts.ahead rest i.ahead)) (by rw [Serves, h])

/-- The state behind the symbol, in which nothing can happen any more. -/
def Ends (a : Automaton) (q : State) (s : Symbol) : Prop :=
  ∃ q' ∈ q.target? s, (a.state q').items = [] ∧ (a.state q').edges = []

instance (a : Automaton) (q : State) (s : Symbol) : Decidable (a.Ends q s) :=
  inferInstanceAs
    (Decidable (∃ q' ∈ q.target? s, (a.state q').items = [] ∧ (a.state q').edges = []))

/-- The initial state expects a program and the end of the input behind it, and all items
of all states are served. -/
def Complete (a : Automaton) : Prop :=
  ((a.state 0).Opens .program (.single none) ∧ a.Ends (a.state 0) (.nonterminal .program)) ∧
    ∀ q ∈ a.toList, ∀ i ∈ q.items, a.Serves q i

instance (a : Automaton) : Decidable a.Complete :=
  inferInstanceAs (Decidable
    (((a.state 0).Opens .program (.single none) ∧ a.Ends (a.state 0) (.nonterminal .program)) ∧
      ∀ q ∈ a.toList, ∀ i ∈ q.items, a.Serves q i))

end Automaton

/-! ## Items and edges that have a reason -/

namespace State

/-- An item of the state waits for the symbol. -/
def Awaits (q : State) (s : Symbol) : Prop :=
  ∃ j ∈ q.items, j.rest.head? = some s

instance (q : State) (s : Symbol) : Decidable (q.Awaits s) :=
  inferInstanceAs (Decidable (∃ j ∈ q.items, j.rest.head? = some s))

/-- An item of the state waits for the phrase and does not itself depend on it: it has begun,
or it belongs to a phrase that comes before in the order of phrases. -/
def Introduces (q : State) (n : Nonterminal) : Prop :=
  ∃ j ∈ q.items, j.rest.head? = some (.nonterminal n) ∧
    (j.rest ≠ j.rule.rhs ∨ j.rule.lhs.ctorIdx < n.ctorIdx)

instance (q : State) (n : Nonterminal) : Decidable (q.Introduces n) :=
  inferInstanceAs (Decidable (∃ j ∈ q.items, j.rest.head? = some (.nonterminal n) ∧
    (j.rest ≠ j.rule.rhs ∨ j.rule.lhs.ctorIdx < n.ctorIdx)))

/-- The item is one of the state that the symbol has brought one further. -/
def Brings (q : State) (s : Symbol) (i : Item) : Prop :=
  ∃ j ∈ q.items, j.rule = i.rule ∧ j.rest = s :: i.rest

instance (q : State) (s : Symbol) (i : Item) : Decidable (q.Brings s i) :=
  inferInstanceAs (Decidable (∃ j ∈ q.items, j.rule = i.rule ∧ j.rest = s :: i.rest))

end State

namespace Automaton

/-- An item has its reason: if it has not begun, then it is that of the whole program in the
initial state or its phrase is introduced. The whole program ends with the input. -/
def Founds (a : Automaton) (q : Nat) (i : Item) : Prop :=
  (i.rest = i.rule.rhs → (q = 0 ∧ i.rule = .program) ∨ (a.state q).Introduces i.rule.lhs) ∧
    (i.rule = .program → i.ahead = .single none)

instance (a : Automaton) (q : Nat) (i : Item) : Decidable (a.Founds q i) :=
  inferInstanceAs (Decidable
    ((i.rest = i.rule.rhs → (q = 0 ∧ i.rule = .program) ∨ (a.state q).Introduces i.rule.lhs) ∧
      (i.rule = .program → i.ahead = .single none)))

/-- An edge has its reason, and so have the items behind it that have begun. The edge for
the whole program is one of the initial state, and none leads back there. -/
def Links (a : Automaton) (q : Nat) (e : Symbol × Nat) : Prop :=
  e.2 ≠ 0 ∧ (e.1 = .nonterminal .program → q = 0) ∧
    (e.1 ≠ .nonterminal .program → (a.state q).Awaits e.1) ∧
    ∀ i ∈ (a.state e.2).items, i.rest = i.rule.rhs ∨ (a.state q).Brings e.1 i

instance (a : Automaton) (q : Nat) (e : Symbol × Nat) : Decidable (a.Links q e) :=
  inferInstanceAs (Decidable
    (e.2 ≠ 0 ∧ (e.1 = .nonterminal .program → q = 0) ∧
      (e.1 ≠ .nonterminal .program → (a.state q).Awaits e.1) ∧
      ∀ i ∈ (a.state e.2).items, i.rest = i.rule.rhs ∨ (a.state q).Brings e.1 i))

/-- All items and all edges have their reasons, and nothing has begun in the initial state. -/
def Sound (a : Automaton) : Prop :=
  (∀ i ∈ (a.state 0).items, i.rest = i.rule.rhs) ∧
    ∀ q ∈ List.range a.size,
      (∀ i ∈ (a.state q).items, a.Founds q i) ∧ ∀ e ∈ (a.state q).edges, a.Links q e

instance (a : Automaton) : Decidable a.Sound :=
  inferInstanceAs (Decidable ((∀ i ∈ (a.state 0).items, i.rest = i.rule.rhs) ∧
    ∀ q ∈ List.range a.size,
      (∀ i ∈ (a.state q).items, a.Founds q i) ∧ ∀ e ∈ (a.state q).edges, a.Links q e))

end Automaton

/-! ## The facts -/

/-- The error of a row of tokens that is refused. -/
def Program.refusal? (ts : List Placed) : Option SyntaxError :=
  match Program.ofTokens ts with
  | .error e => some e
  | .ok _ => none

theorem Program.ofTokens_eq_error_of_refusal? {ts : List Placed} {e : SyntaxError}
    (h : refusal? ts = some e) : ofTokens ts = .error e := by
  rw [refusal?] at h
  rcases hts : ofTokens ts with e' | p <;> rw [hts] at h
  · rw [Option.some.inj h]
  · cases h

/-- **The automaton is complete and sound.** With it, two rows of tokens are refused: a name by
itself, and a parenthesis that is not closed. All of this is computed in one go, because
computing the automaton is most of the work. -/
theorem automaton_facts :
    (automaton.Complete ∧ automaton.Sound) ∧
    Program.refusal? [⟨.name "x", ⟨0, 1⟩⟩] = some ⟨.endOfInput 1, [.mark .assign]⟩ ∧
    Program.refusal? [⟨.name "x", ⟨0, 1⟩⟩, ⟨.mark .assign, ⟨2, 4⟩⟩, ⟨.mark .lparen, ⟨5, 6⟩⟩,
      ⟨.int 1, ⟨6, 7⟩⟩, ⟨.mark .semi, ⟨7, 8⟩⟩] =
        some ⟨.token ⟨.mark .semi, ⟨7, 8⟩⟩, [.mark .rparen]⟩ := by
  decide +kernel

theorem automaton_complete : automaton.Complete :=
  automaton_facts.1.1

theorem automaton_sound : automaton.Sound :=
  automaton_facts.1.2

/-- The items of every state are served; a number behind the last state has no items. -/
theorem automaton_serves (q : Nat) {i : Item} (hi : i ∈ (automaton.state q).items) :
    automaton.Serves (automaton.state q) i := by
  refine automaton_complete.2 _ ?_ i hi
  rw [Automaton.state, Array.getD_eq_getD_getElem?] at hi ⊢
  rcases hq : automaton[q]? with _ | st
  · -- no such state: the empty one stands for it
    rw [hq] at hi
    cases hi
  · exact Array.mem_toList_iff.mpr (Array.mem_of_getElem? hq)

theorem automaton_founds (q : Nat) {i : Item} (hi : i ∈ (automaton.state q).items) :
    automaton.Founds q i := by
  by_cases hq : q < automaton.size
  · exact (automaton_sound.2 q (List.mem_range.mpr hq)).1 i hi
  · rw [Automaton.state, Array.getD_eq_getD_getElem?, Array.getElem?_eq_none (by omega)] at hi
    cases hi

theorem automaton_links (q : Nat) {s : Symbol} {q' : Nat}
    (h : (automaton.state q).target? s = some q') : automaton.Links q (s, q') := by
  have hmem : (s, q') ∈ (automaton.state q).edges := by
    obtain ⟨before, after, hedges, -⟩ := List.lookup_eq_some_iff.mp h
    rw [hedges]
    exact List.mem_append_right before List.mem_cons_self
  by_cases hq : q < automaton.size
  · exact (automaton_sound.2 q (List.mem_range.mpr hq)).2 _ hmem
  · rw [Automaton.state, Array.getD_eq_getD_getElem?, Array.getElem?_eq_none (by omega)] at hmem
    cases hmem

/-! ## What a parser may expect of a state -/

namespace State

/-- In the state the rule may be in progress, with `rest` still to come and `a` behind it. -/
def Expects (q : State) (r : Rule) (rest : List Symbol) (a : Lookahead) : Prop :=
  ∃ i ∈ q.items, i.rule = r ∧ i.rest = rest ∧ i.ahead.contains a = true

variable {r : Rule} {rest : List Symbol} {a : Lookahead}

theorem Covers.expects {q : State} {ahead : Lookaheads} (h : q.Covers r rest ahead)
    (ha : ahead.contains a = true) : q.Expects r rest a := by
  obtain ⟨i, hi, hrule, hrest, hsub⟩ := h
  exact ⟨i, hi, hrule, hrest, Lookaheads.contains_of_subset hsub ha⟩

/-- A rule that waits for a symbol goes on behind the edge for it. -/
theorem Expects.advance {q : Nat} {s : Symbol}
    (h : (automaton.state q).Expects r (s :: rest) a) :
    ∃ q', (automaton.state q).target? s = some q' ∧ (automaton.state q').Expects r rest a := by
  obtain ⟨i, hi, rfl, hrest, ha⟩ := h
  have hserves := automaton_serves q hi
  have hadv : automaton.Advances (automaton.state q) s i.rule rest i.ahead := by
    rw [Automaton.Serves, hrest] at hserves
    cases s with
    | terminal t => exact hserves
    | nonterminal n => exact hserves.1
  obtain ⟨q', hq', hcovers⟩ := hadv
  exact ⟨q', hq', hcovers.expects ha⟩

/-- Where a phrase is expected, all its rules may start; behind them comes what the tokens
of the rest begin with. -/
theorem Expects.enter {q : Nat} {r' : Rule} {ts us : List Placed} {vs : Values rest}
    (h : (automaton.state q).Expects r (.nonterminal r'.lhs :: rest) (Placed.lookahead us))
    (hrest : Spells rest ts vs) :
    (automaton.state q).Expects r' r'.rhs (Placed.lookahead (ts ++ us)) := by
  obtain ⟨i, hi, -, hirest, ha⟩ := h
  have hserves := automaton_serves q hi
  rw [Automaton.Serves, hirest] at hserves
  have hcovers := hserves.2 r' (Nonterminal.mem_rules_iff.mpr rfl)
  exact hcovers.expects (hrest.ahead ha)

/-- A finished rule is found, and the lookahead is not read instead. -/
theorem Expects.finish {q : Nat} (h : (automaton.state q).Expects r [] a) :
    (automaton.state q).finished? a = some r ∧
      ∀ t ∈ a, (automaton.state q).target? (.terminal t) = none := by
  obtain ⟨i, hi, rfl, hirest, ha⟩ := h
  have hserves := automaton_serves q hi
  rw [Automaton.Serves, hirest] at hserves
  exact hserves a a.mem_all ha

end State

end Scriptling

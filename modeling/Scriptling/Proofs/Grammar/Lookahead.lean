import Scriptling.Grammar.Lookahead
import Scriptling.Proofs.Grammar.Derivation

/-!
# What derivations start with

The table `firsts` was found by repeating the equations of the grammar. All that a proof
needs of it is that no rule has anything to add to it (`firsts_closed`), which is a closed
fact. By induction over derivations the table then knows of every phrase whether it can be
without tokens (`Spells.rowNullable`) and what its first token can be (`Spells.starts`).
So the lookahead in front of a row of symbols is among those that the table gives for the
row (`Spells.ahead`).
-/

namespace Scriptling

/-- The lookahead in front of a row of tokens. -/
def Placed.lookahead (ts : List Placed) : Lookahead :=
  ts.head?.map (·.token.terminal)

/-! ## Sets of lookaheads -/

/-- All lookaheads: the end of the input and every terminal. -/
def Lookahead.all : List Lookahead :=
  none :: Terminal.all.map some

theorem Lookahead.mem_all (a : Lookahead) : a ∈ Lookahead.all := by
  cases a with
  | none => exact List.mem_cons_self
  | some t =>
    have ht : t ∈ Terminal.all := List.mem_of_getElem? (Terminal.all_get_index t)
    exact List.mem_cons_of_mem _ (List.mem_map_of_mem ht)

namespace Lookaheads

@[simp] theorem contains_empty (a : Lookahead) : empty.contains a = false := by
  simp [contains, empty]

@[simp] theorem contains_single (a : Lookahead) : (single a).contains a = true := by
  simp [contains, single]

@[simp] theorem contains_union (s t : Lookaheads) (a : Lookahead) :
    (s.union t).contains a = (s.contains a || t.contains a) := by
  simp [contains, union]

theorem contains_of_subset {s t : Lookaheads} {a : Lookahead} (hst : s.subset t = true)
    (ha : s.contains a = true) : t.contains a = true := by
  have hunion : s.mask ||| t.mask = t.mask := by simpa [subset] using hst
  rw [contains, ← hunion, Nat.testBit_or, Bool.or_eq_true]
  exact Or.inl ha

end Lookaheads

/-! ## The table -/

/-- What can come first in a row comes from the row itself, or from behind it if the row
can be empty. -/
theorem FirstTable.contains_ahead (table : FirstTable) (row : List Symbol) (after : Lookaheads)
    (a : Lookahead) :
    (table.ahead row after).contains a =
      ((table.ahead row .empty).contains a || (table.rowNullable row && after.contains a)) := by
  induction row with
  | nil => simp [ahead, rowNullable]
  | cons s row ih =>
    cases s with
    | terminal t => simp [ahead, rowNullable]
    | nonterminal n =>
      by_cases hn : (table.of n).nullable = true
      · simp [ahead, rowNullable, hn, ih, Bool.or_assoc]
      · simp [ahead, rowNullable, hn]

theorem Nonterminal.mem_all (n : Nonterminal) : n ∈ Nonterminal.all := by
  cases n <;> decide

/-- No rule adds to the table. -/
theorem firsts_closed : ∀ n ∈ Nonterminal.all, ∀ r ∈ n.rules,
    (firsts.ahead r.rhs .empty).subset (firsts.of n).starts = true ∧
      (firsts.rowNullable r.rhs = true → (firsts.of n).nullable = true) := by
  decide +kernel

/-- What the right side of a rule can start with, its left side can start with. -/
theorem firsts_starts (r : Rule) {a : Lookahead}
    (ha : (firsts.ahead r.rhs .empty).contains a = true) :
    (firsts.of r.lhs).starts.contains a = true :=
  have hclosed := firsts_closed r.lhs r.lhs.mem_all r (Nonterminal.mem_rules_iff.mpr rfl)
  Lookaheads.contains_of_subset hclosed.1 ha

/-- If the right side of a rule can be empty, its left side can. -/
theorem firsts_nullable (r : Rule) (hr : firsts.rowNullable r.rhs = true) :
    (firsts.of r.lhs).nullable = true :=
  have hclosed := firsts_closed r.lhs r.lhs.mem_all r (Nonterminal.mem_rules_iff.mpr rfl)
  hclosed.2 hr

namespace Spells

variable {row : List Symbol} {ts : List Placed} {vs : Values row}

/-- A row that some derivation leaves without tokens can be empty. -/
theorem rowNullable (h : Spells row ts vs) (hts : ts = []) : firsts.rowNullable row = true := by
  induction h with
  | nil => rfl
  | token t _ _ => cases hts
  | rule r _ _ ihrhs ihrow =>
    obtain ⟨hts, hus⟩ := List.append_eq_nil_iff.mp hts
    rw [FirstTable.rowNullable, firsts_nullable r (ihrhs hts), ihrow hus]
    rfl

/-- The first token of a derivation is one that the row can start with. -/
theorem starts (h : Spells row ts vs) :
    ∀ t ∈ ts.head?, (firsts.ahead row .empty).contains (some t.token.terminal) = true := by
  induction h with
  | nil => intro t ht; cases ht
  | token t _ _ =>
    intro t' ht
    obtain rfl := Option.some.inj ht
    rw [FirstTable.ahead]
    exact Lookaheads.contains_single _
  | @rule r row ts us ws vs hrhs hrow ihrhs ihrow =>
    intro t ht
    rw [FirstTable.ahead]
    rcases ts with _ | ⟨u, ts⟩
    · -- the phrase has no token, so the first one belongs to the rest of the row
      have hnull := firsts_nullable r (hrhs.rowNullable rfl)
      simp only [hnull, if_true, Lookaheads.contains_union, ihrow t ht, Bool.or_true]
    · obtain rfl := Option.some.inj ht
      have hfirst := firsts_starts r (ihrhs u rfl)
      split
      · simp only [Lookaheads.contains_union, hfirst, Bool.true_or]
      · exact hfirst

/-- **Lookahead of a derivation.** If one of `after` follows the tokens of a row, then the
lookahead in front of them is one that the table gives for the row. -/
theorem ahead (h : Spells row ts vs) {after : Lookaheads} {us : List Placed}
    (hus : after.contains (Placed.lookahead us) = true) :
    (firsts.ahead row after).contains (Placed.lookahead (ts ++ us)) = true := by
  rw [FirstTable.contains_ahead, Bool.or_eq_true, Bool.and_eq_true]
  rcases ts with _ | ⟨t, ts⟩
  · exact Or.inr ⟨h.rowNullable rfl, hus⟩
  · exact Or.inl (h.starts t rfl)

end Spells

end Scriptling

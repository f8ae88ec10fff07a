import Scriptling.Proofs.Token.Writable

/-!
# Tokens as text and back

Tokens are written side by side, with a single blank between two of them (`Token.joined`).
Writable tokens are read back from this text, each at the place where it was written
(`Scans.of_joined`). So writing and scanning are inverse to one another on the tokens that a
text can have, and on no others (`Token.scan_joined_round_trip`).

The blank is what makes this work: no token goes on with one, so each token ends where its text
does. Inside a string the blank is a character like any other, because a string ends at its quote.
-/

namespace Scriptling

open String (utf8Len)
open Lexeme (Cut Stops)

namespace Token

/-- Tokens as text, with a blank between each two. -/
def joined (ts : List Token) : String :=
  " ".intercalate (ts.map text)

/-- Tokens side by side from the offset on: each takes the place of its text, and one byte is left
free behind it. -/
def inRow (offset : Nat) : List Token → List Placed
  | [] => []
  | t :: ts =>
    let stop := offset + utf8Len t.text.toList
    ⟨t, ⟨offset, stop⟩⟩ :: inRow (stop + 1) ts

@[simp] theorem map_token_inRow (offset : Nat) (ts : List Token) :
    (inRow offset ts).map Placed.token = ts := by
  induction ts generalizing offset with
  | nil => rfl
  | cons t ts ih => simp [inRow, ih]

theorem toList_joined_nil : (joined []).toList = [] := by
  simp [joined]

theorem toList_joined_singleton (t : Token) : (joined [t]).toList = t.text.toList := by
  simp [joined]

theorem toList_joined_cons_cons (t u : Token) (ts : List Token) :
    (joined (t :: u :: ts)).toList = t.text.toList ++ ([' '] ++ (joined (u :: ts)).toList) := by
  simp [joined]

/-- The text of tokens starts as that of the first one does, which is no blank. -/
theorem isBlank_head?_joined {t : Token} (ht : t.Writable) (ts : List Token) :
    ∀ c ∈ (joined (t :: ts)).toList.head?, isBlank c = false := by
  obtain ⟨c, cs, htext, hc⟩ := ht.exists_cons
  cases ts with
  | nil => simp [toList_joined_singleton, htext, hc]
  | cons u ts => simp [toList_joined_cons_cons, htext, hc]

end Token

/-- **Joined tokens are read back**, each at the place of its text. -/
theorem Scans.of_joined {ts : List Token} (hts : ∀ t ∈ ts, t.Writable) (offset : Nat) :
    Scans [] offset (Token.joined ts).toList (Token.inRow offset ts) := by
  -- the last token has no blank behind it, so lists of one token are a case of their own
  induction ts generalizing offset with
  | nil =>
    rw [Token.toList_joined_nil]
    exact .done offset
  | cons t ts ih =>
    obtain ⟨ht, hts⟩ := List.forall_mem_cons.mp hts
    cases ts with
    | nil =>
      have hcut : Cut (.token t) t.text.toList ([] ++ []) := ht.cut (by simp [Stops])
      have hscans := Scans.token hcut (.done (offset + utf8Len t.text.toList))
      rw [Token.toList_joined_singleton]
      simpa [Token.inRow] using hscans
    | cons u ts =>
      have hu : u.Writable := hts u List.mem_cons_self
      have htoken : Cut (.token t) t.text.toList
          (([' '] ++ (Token.joined (u :: ts)).toList) ++ []) :=
        ht.cut (by simp [Stops])
      have hblank : Cut .skipped [' '] ((Token.joined (u :: ts)).toList ++ []) := by
        rw [List.append_nil]
        exact .blanks rfl (by simp) (Token.isBlank_head?_joined hu ts)
      rw [Token.toList_joined_cons_cons]
      exact .token htoken (.skip hblank (ih hts _))

/-- Joined tokens are scanned to the same tokens. -/
theorem Token.exists_scan_joined {ts : List Token} (hts : ∀ t ∈ ts, t.Writable) :
    ∃ us, scan (joined ts).toList = .ok us ∧ us.map Placed.token = ts :=
  ⟨inRow 0 ts, scan_eq_ok_iff.mpr (.of_joined hts 0), map_token_inRow 0 ts⟩

/-- **Round trip.** Tokens that are joined with single blanks and scanned again come back exactly if
all of them can be written: no literal is negative, no string holds a quote, and every name is a
word that is not reserved. The tokens of any source are of this sort, so writing them anew and
scanning what was written changes none of them. -/
theorem Token.scan_joined_round_trip :
    (∀ ts : List Token,
      (∃ us, scan (joined ts).toList = .ok us ∧ us.map Placed.token = ts) ↔
        ∀ t ∈ ts, t.Writable) ∧
    ∀ (source : String) (us : List Placed), scan source.toList = .ok us →
      (∀ t ∈ us.map Placed.token, t.Writable) ∧
      ∃ vs, scan (joined (us.map Placed.token)).toList = .ok vs ∧
        vs.map Placed.token = us.map Placed.token := by
  have hwritable {source : String} {us : List Placed} (hscan : scan source.toList = .ok us) :
      ∀ t ∈ us.map Placed.token, t.Writable := by
    intro t ht
    obtain ⟨u, hu, rfl⟩ := List.mem_map.mp ht
    exact (scan_eq_ok_iff.mp hscan).writable u hu
  refine ⟨fun ts => ⟨?_, exists_scan_joined⟩, fun source us hscan => ?_⟩
  · rintro ⟨us, hscan, rfl⟩
    exact hwritable hscan
  · exact ⟨hwritable hscan, exists_scan_joined (hwritable hscan)⟩

/-- Tokens without a blank between them, a string that holds what would be a comment elsewhere, and
a number with a zero too many. -/
theorem Token.scan_joined_round_trip_glued :
    ∃ (source : String) (us : List Placed), source = "x:=\"a // b\"<=07//\n(if1" ∧
      scan source.toList = .ok us ∧
      us.map Placed.token = [.name "x", .mark .assign, .str "a // b", .mark .ltEq, .int 7,
        .mark .lparen, .name "if1"] ∧
      joined (us.map Placed.token) = "x := \"a // b\" <= 7 ( if1" ∧
      (∀ t ∈ us.map Placed.token, t.Writable) ∧
      ∃ vs, scan (joined (us.map Placed.token)).toList = .ok vs ∧
        vs.map Placed.token = us.map Placed.token := by
  let us : List Placed := [⟨.name "x", ⟨0, 1⟩⟩, ⟨.mark .assign, ⟨1, 3⟩⟩,
    ⟨.str "a // b", ⟨3, 11⟩⟩, ⟨.mark .ltEq, ⟨11, 13⟩⟩, ⟨.int 7, ⟨13, 15⟩⟩,
    ⟨.mark .lparen, ⟨18, 19⟩⟩, ⟨.name "if1", ⟨19, 22⟩⟩]
  have hscan : scan "x:=\"a // b\"<=07//\n(if1".toList = .ok us := by with_unfolding_all rfl
  have htext : joined (us.map Placed.token) = "x := \"a // b\" <= 7 ( if1" := by decide
  exact ⟨_, us, rfl, hscan, rfl, htext, scan_joined_round_trip.2 _ us hscan⟩

end Scriptling

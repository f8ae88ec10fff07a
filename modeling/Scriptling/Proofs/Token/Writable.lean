import Scriptling.Proofs.Text.Numerals
import Scriptling.Proofs.Token.Scan

/-!
# Tokens that can be written

Not every token comes from a text: no literal is negative, no string holds a quote, and no name
is spelled like a reserved word. `Token.Writable` says which tokens do. All tokens of a text are
writable (`Scans.writable`), and writable tokens, written with blanks between, are read back
(`Scans.of_render`).
-/

namespace Scriptling

open String (utf8Len)
open Lexeme (Cut Stops)

/-- A word that is not reserved. -/
def IsName (x : String) : Prop :=
  Lexeme.isWord x.toList = true ∧ ∀ k : Keyword, k.text ≠ x

/-- What a token of the class can carry. -/
def Terminal.Writable : (t : Terminal) → t.Payload → Prop
  | int, n => 0 ≤ n
  | str, s => '"' ∉ s.toList
  | name, x => IsName x
  | word _, _ | mark _, _ => True

/-- The token has a text. -/
def Token.Writable (t : Token) : Prop :=
  t.terminal.Writable t.payload

/-! ## Literals -/

theorem Text.readDigits?_nonneg {cs : List Char} {n : Int64}
    (h : Text.readDigits? cs = some n) : 0 ≤ n := by
  obtain ⟨-, hn⟩ := Text.readDigits?_eq_some_iff.mp h
  rw [Int64.le_iff_toInt_le, hn]
  exact Int.natCast_nonneg _

/-- The digits of a number that is not negative are read back. -/
theorem Text.readDigits?_decimal {n : Int64} (h : 0 ≤ n) :
    ∃ c run, (Text.decimal n).toList = c :: run ∧ (∀ d ∈ c :: run, d.isDigit = true) ∧
      Text.readDigits? (c :: run) = some n := by
  have hn : 0 ≤ n.toInt := Int64.le_iff_toInt_le.mp h
  have htext : Text.decimal n = n.toInt.natAbs.repr := by
    rw [Text.decimal, if_neg (Int.not_lt.mpr hn)]
  have hdigits := Text.isDigits_repr n.toInt.natAbs
  obtain ⟨hne, hall⟩ := Text.isDigits_iff.mp hdigits
  obtain ⟨c, run, hlist⟩ := List.exists_cons_of_ne_nil hne
  refine ⟨c, run, htext ▸ hlist, ?_⟩
  rw [← hlist, Text.readDigits?_eq_some_iff, Text.digitsValue_repr, Int.natAbs_of_nonneg hn]
  exact ⟨hall, hdigits, rfl⟩

/-! ## Tokens of a text -/

theorem Keyword.ofText?_eq_none_iff {x : String} :
    Keyword.ofText? x = none ↔ ∀ k : Keyword, k.text ≠ x := by
  have hall (k : Keyword) : k ∈ Keyword.all := by cases k <;> decide
  simp only [Keyword.ofText?, List.find?_eq_none, hall, forall_const, beq_iff_eq, ne_eq]

instance (x : String) : Decidable (IsName x) :=
  decidable_of_iff (Lexeme.isWord x.toList = true ∧ Keyword.ofText? x = none)
    (and_congr_right' Keyword.ofText?_eq_none_iff)

/-- A word is a reserved one, or a name. -/
theorem Lexeme.word_writable {cs : List Char} (h : Lexeme.isWord cs = true) :
    (Lexeme.word cs).Writable := by
  rw [Lexeme.word]
  split
  · trivial
  · next hnone =>
    have hname : IsName (String.ofList cs) :=
      ⟨by rwa [String.toList_ofList], Keyword.ofText?_eq_none_iff.mp hnone⟩
    exact hname

theorem IsName.word_eq {x : String} (h : IsName x) : Lexeme.word x.toList = .name x := by
  rw [Lexeme.word, String.ofList_toList]
  simp only [Keyword.ofText?_eq_none_iff.mpr h.2]

/-- A token that is cut off can be written. -/
theorem Lexeme.Cut.writable {t : Token} {text rest : List Char} (h : Cut (.token t) text rest) :
    t.Writable := by
  cases h with
  | digits _ _ _ hn => exact Text.readDigits?_nonneg hn
  | word hc hrun _ =>
    refine Lexeme.word_writable ?_
    rw [Lexeme.isWord, hc, Bool.true_and, List.all_eq_true]
    exact hrun
  | @string inner _ hinner =>
    have hmem : '"' ∉ (String.ofList inner).toList := by rwa [String.toList_ofList]
    exact hmem
  | pair | single => trivial

theorem Scans.writable {rest text : List Char} {offset : Nat} {ts : List Placed}
    (h : Scans rest offset text ts) : ∀ t ∈ ts, t.token.Writable := by
  induction h with
  | done => simp
  | skip _ _ ih => exact ih
  | token hcut _ ih => exact List.forall_mem_cons.mpr ⟨hcut.writable, ih⟩

/-! ## Writing tokens -/

theorem Mark.toList_text (m : Mark) :
    (∃ c, m.text.toList = [c] ∧ Mark.ofChar? c = some m) ∨
      ∃ c d, m.text.toList = [c, d] ∧ Mark.ofPair? c d = some m := by
  cases m
  case assign | ltGt | ltEq | gtEq | eqEq | notEq => exact Or.inr ⟨_, _, rfl, rfl⟩
  all_goals exact Or.inl ⟨_, rfl, rfl⟩

/-- **Written tokens are read.** A token that can be written is cut off where something
stops it. -/
theorem Token.Writable.cut {t : Token} (h : t.Writable) {rest : List Char} (hrest : Stops rest) :
    Cut (.token t) t.text.toList rest := by
  -- with nothing behind it, and so with what stops it
  suffices hend : Cut (.token t) t.text.toList [] from hend.follow (.inr ⟨⟨t, rfl⟩, hrest⟩)
  cases t with
  | word k =>
    have hword := Cut.of_isWord (Lexeme.isWord_keyword k) (fun d (hd : d ∈ [].head?) => nomatch hd)
    rw [Lexeme.word_keyword] at hword
    exact hword
  | int n =>
    have hnonneg : 0 ≤ n := h
    obtain ⟨c, run, hdigits, hall, hn⟩ := Text.readDigits?_decimal hnonneg
    obtain ⟨hc, hrun⟩ := List.forall_mem_cons.mp hall
    rw [Token.text, hdigits]
    exact .digits hc hrun (by simp) hn
  | str s =>
    have htext : (Token.str s).text.toList = '"' :: s.toList ++ ['"'] := by simp [Token.text]
    have hstring : Cut (.token (.str (String.ofList s.toList))) ('"' :: s.toList ++ ['"']) [] :=
      .string h
    rw [String.ofList_toList] at hstring
    rw [htext]
    exact hstring
  | name x =>
    have hword := Cut.of_isWord h.1 (fun d (hd : d ∈ [].head?) => nomatch hd)
    rw [IsName.word_eq h] at hword
    exact hword
  | mark m =>
    obtain ⟨c, htext, hm⟩ | ⟨c, d, htext, hm⟩ := m.toList_text
    · rw [Token.text, htext]
      exact .single hm (by simp)
    · rw [Token.text, htext]
      exact .pair hm

/-- No token starts with a blank. -/
theorem Lexeme.Cut.isBlank_head {t : Token} {c : Char} {text rest : List Char}
    (h : Cut (.token t) (c :: text) rest) : isBlank c = false := by
  obtain ⟨d, cs, htext, hfirst⟩ := h.first_eq
  obtain ⟨rfl, rfl⟩ := List.cons.inj htext
  rcases hblank : isBlank c with _ | _
  · rfl
  · rw [Lexeme.first, if_pos hblank] at hfirst
    cases hfirst

/-- The text of a token starts with a character that is no blank. -/
theorem Token.Writable.exists_cons {t : Token} (h : t.Writable) :
    ∃ c cs, t.text.toList = c :: cs ∧ isBlank c = false := by
  have hcut : Cut (.token t) t.text.toList [] := h.cut (by simp [Stops])
  obtain ⟨c, cs, htext⟩ := hcut.exists_cons
  rw [htext] at hcut
  exact ⟨c, cs, htext, hcut.isBlank_head⟩

/-- Tokens as text, each with a blank behind it. -/
def Token.render : List Token → List Char
  | [] => []
  | t :: ts => t.text.toList ++ ' ' :: Token.render ts

theorem Token.isBlank_head?_render {ts : List Token} (hts : ∀ t ∈ ts, t.Writable) :
    ∀ c ∈ (Token.render ts).head?, isBlank c = false := by
  cases ts with
  | nil => simp [Token.render]
  | cons t ts =>
    obtain ⟨c, cs, htext, hc⟩ := (hts t List.mem_cons_self).exists_cons
    simp [Token.render, htext, hc]

/-- **Written texts are read back.** -/
theorem Scans.of_render {ts : List Token} (hts : ∀ t ∈ ts, t.Writable) (offset : Nat) :
    ∃ us : List Placed, Scans [] offset (Token.render ts) us ∧ us.map Placed.token = ts := by
  induction ts generalizing offset with
  | nil => exact ⟨[], .done _, rfl⟩
  | cons t ts ih =>
    obtain ⟨ht, hts⟩ := List.forall_mem_cons.mp hts
    obtain ⟨us, hus, rfl⟩ := ih hts (offset + utf8Len t.text.toList + utf8Len [' '])
    have htoken : Cut (.token t) t.text.toList
        (([' '] ++ Token.render (us.map Placed.token)) ++ []) :=
      ht.cut (by simp [Stops])
    have hblank : Cut .skipped [' '] (Token.render (us.map Placed.token) ++ []) := by
      rw [List.append_nil]
      exact .blanks rfl (by simp) (Token.isBlank_head?_render hts)
    exact ⟨_, .token htoken (.skip hblank hus), rfl⟩

end Scriptling

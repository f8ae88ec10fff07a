import Mathlib.Data.String.Basic
import Scriptling.Diagnostic
import Scriptling.Proofs.Grammar.Completeness
import Scriptling.Proofs.Syntax.Relocation
import Scriptling.Proofs.Token.Lexeme

/-!
# Scanning a part of a text

`Scans rest offset text ts`: with `rest` behind it and at that offset, `text` is divided into
lexemes, of which `ts` are the tokens. What follows is part of the judgement because lexemes
are the longest possible; so scans can be put together (`Scans.append`) and, at the places of
tokens, taken apart (`Scans.cut_before`, `Scans.cut_behind`).

Main statement: the text from the start of one token to the stop of another is a *fragment*
(`Scans.slice`): it scans to the tokens between, wherever it is put and whatever follows that
cannot prolong the last of them.
-/

namespace Scriptling

open String (utf8Len utf8Len_append)
open Lexeme (Cut Stops)

/-- With `rest` behind it, the text at `offset` consists of lexemes with these tokens. -/
inductive Scans (rest : List Char) : (offset : Nat) → (text : List Char) → List Placed → Prop
  /-- nothing -/
  | done (offset : Nat) : Scans rest offset [] []
  /-- blanks or a comment first -/
  | skip {offset : Nat} {text more : List Char} {ts : List Placed} :
      Cut .skipped text (more ++ rest) → Scans rest (offset + utf8Len text) more ts →
      Scans rest offset (text ++ more) ts
  /-- a token first -/
  | token {offset : Nat} {text more : List Char} {t : Token} {ts : List Placed} :
      Cut (.token t) text (more ++ rest) → Scans rest (offset + utf8Len text) more ts →
      Scans rest offset (text ++ more) (⟨t, ⟨offset, offset + utf8Len text⟩⟩ :: ts)

/-! ## The scanner -/

theorem Scans.scanFrom_eq {offset : Nat} {text : List Char} {ts : List Placed}
    (h : Scans [] offset text ts) : scanFrom offset text = .ok ts := by
  induction h with
  | done => rw [scanFrom]
  | skip hcut _ ih =>
    obtain ⟨c, cs, htext, hfirst⟩ := hcut.first_eq
    rw [List.append_nil] at htext hfirst
    simp only [htext, scanFrom, hfirst, String.utf8ByteSize_ofList, ih]
  | token hcut _ ih =>
    obtain ⟨c, cs, htext, hfirst⟩ := hcut.first_eq
    rw [List.append_nil] at htext hfirst
    simp only [htext, scanFrom, hfirst, String.utf8ByteSize_ofList, ih]

theorem Scans.of_scanFrom {offset : Nat} {text : List Char} {ts : List Placed}
    (h : scanFrom offset text = .ok ts) : Scans [] offset text ts := by
  fun_induction scanFrom offset text generalizing ts
  case case1 =>
    cases h
    exact .done _
  case case2 offset c cs lexeme stop hskipped ih =>
    have hcut : Cut .skipped lexeme.text lexeme.rest := Lexeme.cut_of_first hskipped (by simp)
    rw [← List.append_nil lexeme.rest] at hcut
    rw [← Lexeme.text_append_rest c cs]
    have hstop : stop = _ := congrArg (offset + ·) (String.utf8ByteSize_ofList lexeme.text)
    rw [hstop] at ih h
    exact .skip hcut (ih h)
  case case3 | case5 => cases h
  case case4 offset c cs lexeme stop t htoken ts' hrest ih =>
    have hcut : Cut (.token t) lexeme.text lexeme.rest := Lexeme.cut_of_first htoken (by simp)
    rw [← List.append_nil lexeme.rest] at hcut
    rw [← Lexeme.text_append_rest c cs]
    have hstop : stop = _ := congrArg (offset + ·) (String.utf8ByteSize_ofList lexeme.text)
    obtain rfl := Except.ok.inj h
    rw [hstop] at ih hrest ⊢
    exact .token hcut (ih hrest)

/-- Where the scanner fails, what stands before was cut into lexemes, and a wrong one follows. -/
theorem Scans.of_scanFrom_error {offset : Nat} {text : List Char} {e : ScanError}
    (h : scanFrom offset text = .error e) :
    ∃ before c cs ts, text = before ++ c :: cs ∧ Scans (c :: cs) offset before ts ∧
      (Lexeme.first c cs).is = .wrong e.fault ∧
      e.span = ⟨offset + utf8Len before,
        offset + utf8Len before + utf8Len (Lexeme.first c cs).text⟩ := by
  fun_induction scanFrom offset text
  case case1 => cases h
  case case4 => cases h
  case case3 offset c cs lexeme stop f hwrong =>
    cases h
    have hstop : stop = _ := congrArg (offset + ·) (String.utf8ByteSize_ofList lexeme.text)
    exact ⟨[], c, cs, [], rfl, .done _, hwrong, by rw [hstop]; rfl⟩
  case case2 offset c cs lexeme stop hskipped ih =>
    have hstop : stop = _ := congrArg (offset + ·) (String.utf8ByteSize_ofList lexeme.text)
    obtain ⟨before, c', cs', ts, hrest, hscans, hfirst, hspan⟩ := ih h
    rw [hstop] at hscans hspan
    have hcut : Cut .skipped lexeme.text lexeme.rest := Lexeme.cut_of_first hskipped (by simp)
    rw [hrest] at hcut
    refine ⟨lexeme.text ++ before, c', cs', ts, ?_, .skip hcut hscans, hfirst, ?_⟩
    · rw [List.append_assoc, ← hrest, Lexeme.text_append_rest]
    · rw [hspan, utf8Len_append, ← Nat.add_assoc]
  case case5 offset c cs lexeme stop t htoken e' herror ih =>
    cases h
    have hstop : stop = _ := congrArg (offset + ·) (String.utf8ByteSize_ofList lexeme.text)
    obtain ⟨before, c', cs', ts, hrest, hscans, hfirst, hspan⟩ := ih herror
    rw [hstop] at hscans hspan
    have hcut : Cut (.token t) lexeme.text lexeme.rest := Lexeme.cut_of_first htoken (by simp)
    rw [hrest] at hcut
    refine ⟨lexeme.text ++ before, c', cs', _, ?_, .token hcut hscans, hfirst, ?_⟩
    · rw [List.append_assoc, ← hrest, Lexeme.text_append_rest]
    · rw [hspan, utf8Len_append, ← Nat.add_assoc]

/-- The scanner finds the tokens that are there. -/
theorem scan_eq_ok_iff {source : List Char} {ts : List Placed} :
    scan source = .ok ts ↔ Scans [] 0 source ts :=
  ⟨Scans.of_scanFrom, Scans.scanFrom_eq⟩

/-- A source is read as a program exactly if its tokens spell it. -/
theorem Program.ofSource_eq_ok_iff_scans {source : String} {p : Program} :
    Program.ofSource source = .ok p ↔ ∃ ts, Scans [] 0 source.toList ts ∧ p.SpelledBy ts := by
  rw [Program.ofSource_eq_ok_iff]
  constructor
  · rintro ⟨ts, hscan, hparse⟩
    exact ⟨ts, scan_eq_ok_iff.mp hscan, Program.spelledBy_of_ofTokens hparse⟩
  · rintro ⟨ts, hscans, hp⟩
    exact ⟨ts, scan_eq_ok_iff.mpr hscans, Program.ofTokens_of_spelledBy hp⟩

/-- Tokens that stand one behind the other, none of them empty. -/
structure Placed.Ordered (ts : List Placed) : Prop where
  /-- each token has characters -/
  start_lt_stop : ∀ t ∈ ts, t.span.start < t.span.stop
  /-- a token stops before the next one starts -/
  pairwise : ts.Pairwise fun t u => t.span.stop ≤ u.span.start

/-- The offset behind a text, with the first character counted first. -/
theorem add_utf8Len_cons (offset : Nat) (c : Char) (cs : List Char) :
    offset + utf8Len (c :: cs) = offset + c.utf8Size + utf8Len cs := by
  rw [String.utf8Len_cons, Nat.add_comm (utf8Len cs), ← Nat.add_assoc]

theorem utf8Len_pos {cs : List Char} (h : cs ≠ []) : 0 < utf8Len cs :=
  Nat.pos_of_ne_zero (mt String.utf8Len_eq_zero.mp h)

theorem Lexeme.Cut.utf8Len_pos {k : LexemeClass} {text rest : List Char}
    (h : Cut k text rest) : 0 < utf8Len text := by
  obtain ⟨c, cs, rfl⟩ := h.exists_cons
  exact Scriptling.utf8Len_pos (List.cons_ne_nil c cs)

namespace Scans

variable {rest : List Char} {offset : Nat} {text : List Char} {ts us : List Placed}

theorem offset_le (h : Scans rest offset text ts) : ∀ t ∈ ts, offset ≤ t.span.start := by
  induction h with
  | done => simp
  | skip _ _ ih => exact fun t ht => le_trans (Nat.le_add_right ..) (ih t ht)
  | token _ _ ih =>
    intro t ht
    obtain rfl | ht := List.mem_cons.mp ht
    · exact le_rfl
    · exact le_trans (Nat.le_add_right ..) (ih t ht)

/-- Tokens are found in order. -/
theorem ordered (h : Scans rest offset text ts) : Placed.Ordered ts := by
  induction h with
  | done => exact ⟨by simp, .nil⟩
  | skip _ _ ih => exact ih
  | token hcut hmore ih =>
    refine ⟨fun t ht => ?_, .cons hmore.offset_le ih.pairwise⟩
    obtain rfl | ht := List.mem_cons.mp ht
    · exact Nat.lt_add_of_pos_right hcut.utf8Len_pos
    · exact ih.start_lt_stop t ht

/-! ## Putting scans together and moving them -/

theorem append {more : List Char} (h : Scans (more ++ rest) offset text ts)
    (hmore : Scans rest (offset + utf8Len text) more us) :
    Scans rest offset (text ++ more) (ts ++ us) := by
  induction h with
  | done => exact hmore
  | skip hcut _ ih =>
    rw [utf8Len_append, ← Nat.add_assoc] at hmore
    rw [List.append_assoc]
    exact .skip (by rwa [List.append_assoc]) (ih hmore)
  | token hcut _ ih =>
    rw [utf8Len_append, ← Nat.add_assoc] at hmore
    rw [List.append_assoc]
    exact .token (by rwa [List.append_assoc]) (ih hmore)

/-- At a later offset the tokens are moved. -/
theorem shift (h : Scans rest offset text ts) (k : Nat) :
    Scans rest (offset + k) text (ts.map (Placed.relocate (· + k))) := by
  induction h with
  | done => exact .done _
  | skip hcut _ ih => exact .skip hcut (by rwa [Nat.add_right_comm])
  | token hcut _ ih =>
    rw [Nat.add_right_comm] at ih
    rw [List.map_cons, Placed.relocate, Span.relocate, Nat.add_right_comm]
    exact .token hcut ih

/-- At an earlier offset the tokens are moved back. -/
theorem exists_unshift {k : Nat} (h : Scans rest offset text ts) {offset' : Nat}
    (hoffset : offset = offset' + k) :
    ∃ zs, Scans rest offset' text zs ∧ zs.map (Placed.relocate (· + k)) = ts := by
  induction h generalizing offset' with
  | done => exact ⟨[], .done _, rfl⟩
  | skip hcut _ ih =>
    obtain ⟨zs, hzs, rfl⟩ := ih (by rw [hoffset, Nat.add_right_comm])
    exact ⟨zs, .skip hcut hzs, rfl⟩
  | token hcut _ ih =>
    obtain ⟨zs, hzs, rfl⟩ := ih (by rw [hoffset, Nat.add_right_comm])
    refine ⟨_, .token hcut hzs, ?_⟩
    rw [List.map_cons, Placed.relocate, Span.relocate, hoffset, Nat.add_right_comm]

theorem unshift {k : Nat} (h : Scans rest (offset + k) text (ts.map (Placed.relocate (· + k)))) :
    Scans rest offset text ts := by
  obtain ⟨zs, hzs, hmap⟩ := h.exists_unshift rfl
  have hinj : Function.Injective (Placed.relocate (· + k)) :=
    Placed.relocate_injective (fun _ _ => Nat.add_right_cancel)
  rwa [← List.map_injective_iff.mpr hinj hmap]

/-! ## Taking scans apart -/

/-- What precedes the first token can be left out. -/
theorem cut_before (h : Scans rest offset text ts) (hts : ts ≠ []) :
    ∃ before text', text = before ++ text' ∧
      Scans rest (offset + utf8Len before) text' ts ∧
      ∀ t ∈ ts.head?, t.span.start = offset + utf8Len before := by
  induction h with
  | done => exact absurd rfl hts
  | @skip offset blanks more ts hcut _ ih =>
    obtain ⟨before, text', rfl, hscans, hstart⟩ := ih hts
    refine ⟨blanks ++ before, text', by simp, ?_⟩
    rw [utf8Len_append, ← Nat.add_assoc]
    exact ⟨hscans, hstart⟩
  | token hcut hmore =>
    exact ⟨[], _, rfl, .token hcut hmore, by simp⟩

/-- What follows a token can be left out, and something else can follow instead. -/
theorem cut_behind (h : Scans rest offset text ts) {ws us : List Placed} (hts : ts = ws ++ us)
    (hws : ws ≠ []) :
    ∃ c cs behind, text = (c :: cs) ++ behind ∧
      (∀ rest', Stops rest' → Scans rest' offset (c :: cs) ws) ∧
      Scans rest (offset + utf8Len (c :: cs)) behind us ∧
      ∀ t ∈ ws.getLast?, t.span.stop = offset + utf8Len (c :: cs) := by
  induction h generalizing ws with
  | done =>
    obtain ⟨rfl, -⟩ := List.append_eq_nil_iff.mp hts.symm
    exact absurd rfl hws
  | @skip offset blanks more ts hcut _ ih =>
    obtain ⟨c, cs, behind, rfl, hscans, hbehind, hstop⟩ := ih hts hws
    obtain ⟨b, bs, rfl⟩ := hcut.exists_cons
    refine ⟨b, bs ++ c :: cs, behind, by simp, ?_, ?_⟩
    · intro rest' hrest'
      have hblanks : Cut .skipped (b :: bs) (c :: cs ++ rest') := hcut.follow (.inl rfl)
      exact .skip hblanks (hscans rest' hrest')
    · rw [← List.cons_append, utf8Len_append, ← Nat.add_assoc]
      exact ⟨hbehind, hstop⟩
  | @token offset text more t ts hcut hmore ih =>
    obtain ⟨c, cs, rfl⟩ := hcut.exists_cons
    rcases ws with _ | ⟨w, ws⟩
    · exact absurd rfl hws
    obtain ⟨rfl, rfl⟩ : _ = w ∧ ts = ws ++ us := List.cons.inj hts
    rcases ws with _ | ⟨w, ws⟩
    · -- the first token is also the last one
      refine ⟨c, cs, more, rfl, ?_, hmore, by simp⟩
      intro rest' hrest'
      have htoken : Cut (.token t) (c :: cs) ([] ++ rest') := hcut.follow (.inr ⟨⟨t, rfl⟩, hrest'⟩)
      have hscans := Scans.token htoken (.done (offset + utf8Len (c :: cs)))
      rwa [List.append_nil] at hscans
    · obtain ⟨d, ds, behind, rfl, hscans, hbehind, hstop⟩ := ih rfl (by simp)
      refine ⟨c, cs ++ d :: ds, behind, by simp, ?_, ?_⟩
      · intro rest' hrest'
        have htoken : Cut (.token t) (c :: cs) (d :: ds ++ rest') := hcut.follow (.inl rfl)
        exact .token htoken (hscans rest' hrest')
      · rw [← List.cons_append, utf8Len_append, ← Nat.add_assoc]
        exact ⟨hbehind, by simpa using hstop⟩

end Scans

/-- A text that scans to these tokens wherever it stands, whatever stops the last of them. -/
def Fragment (text : List Char) (ts : List Placed) : Prop :=
  ∀ rest offset, Stops rest → Scans rest offset text (ts.map (Placed.relocate (· + offset)))

/-- **Slices.** The text between the start of one token and the stop of another is a fragment
with the tokens between. -/
theorem Scans.slice {rest : List Char} {offset : Nat} {text : List Char}
    {pre ws post : List Placed} (h : Scans rest offset text (pre ++ ws ++ post)) (hws : ws ≠ []) :
    ∃ (before slice behind : List Char) (zs : List Placed),
      text = before ++ slice ++ behind ∧
      Placed.extent ws =
        some ⟨offset + utf8Len before, offset + utf8Len (before ++ slice)⟩ ∧
      zs.map (Placed.relocate (· + (offset + utf8Len before))) = ws ∧ Fragment slice zs := by
  -- leave out the tokens before, then the blanks before, then what comes behind
  obtain ⟨before₁, text₁, rfl, h₁⟩ : ∃ before text', text = before ++ text' ∧
      Scans rest (offset + utf8Len before) text' (ws ++ post) := by
    rcases pre with _ | ⟨t, pre⟩
    · exact ⟨[], text, rfl, h⟩
    · rw [List.append_assoc] at h
      obtain ⟨c, cs, behind, rfl, -, hbehind, -⟩ := h.cut_behind rfl (by simp)
      exact ⟨c :: cs, behind, rfl, hbehind⟩
  obtain ⟨before₂, text₂, rfl, h₂, hstart⟩ := h₁.cut_before (by simp [hws])
  obtain ⟨c, cs, behind, rfl, hscans, -, hstop⟩ := h₂.cut_behind rfl hws
  rw [Nat.add_assoc, ← utf8Len_append] at h₂ hstart hscans hstop
  obtain ⟨zs, hzs, hmap⟩ := (hscans [] (by simp [Stops])).exists_unshift (Nat.zero_add _).symm
  refine ⟨before₁ ++ before₂, c :: cs, behind, zs, by simp, ?_, hmap, ?_⟩
  · have hfirst := List.head?_eq_some_head hws
    have hlast := List.getLast?_eq_some_getLast hws
    have hhead : ws.head hws ∈ (ws ++ post).head? := by
      rw [List.head?_append, hfirst, Option.some_or]
      rfl
    rw [Placed.extent, hfirst, hlast]
    simp only [hstart _ hhead, hstop _ hlast, utf8Len_append, Nat.add_assoc]
  · intro rest' offset' hrest'
    have hscans : Scans rest' (0 + (offset + utf8Len (before₁ ++ before₂))) (c :: cs)
        (zs.map (Placed.relocate (· + (offset + utf8Len (before₁ ++ before₂))))) := by
      rw [hmap, Nat.zero_add]
      exact hscans rest' hrest'
    have hshift := hscans.unshift.shift offset'
    rwa [Nat.zero_add] at hshift

end Scriptling

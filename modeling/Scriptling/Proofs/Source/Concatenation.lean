import Scriptling.Proofs.Syntax.Spans
import Scriptling.Proofs.Token.Writable

/-!
# Sources put together

Two programs make one if a separator stands between them: `s₁ ++ "\n;\n" ++ s₂` is read as the
statements of both, those of the second at the places where they now are
(`Program.ofSource_append`).

For the scanner the line feeds are what matters. A blank ends every token, and a line feed also ends
a comment, so nothing in front of it goes on behind it; only blanks on both sides become one run
(`Scans.append_lineFeed`, `Scans.blank_cons`). For the grammar the separator is what matters: a
row of statements, a separator and another row of statements are again a row of statements
(`Spells.append_stmts`), whatever statement the first row ends with.
-/

namespace Scriptling

open String (utf8Len utf8Len_append)
open Lexeme (Cut)

/-! ## Blanks at the seam -/

section

variable {b : Char}

theorem isDigit_of_isBlank (hb : isBlank b = true) : b.isDigit = false := by
  obtain rfl | rfl | rfl | rfl | rfl := Lexeme.isBlank_eq_true_iff.mp hb
  all_goals decide

theorem isNamePart_of_isBlank (hb : isBlank b = true) : isNamePart b = false := by
  obtain rfl | rfl | rfl | rfl | rfl := Lexeme.isBlank_eq_true_iff.mp hb
  all_goals decide

/-- A blank does not go on with a mark, and starts no comment. -/
theorem ofPair?_of_isBlank (hb : isBlank b = true) (c : Char) :
    Mark.ofPair? c b = none ∧ ¬ (c = '/' ∧ b = '/') := by
  obtain rfl | rfl | rfl | rfl | rfl := Lexeme.isBlank_eq_true_iff.mp hb
  all_goals exact ⟨Lexeme.ofPair?_eq_none c (by decide) (by decide), by simp⟩

/-- A token stays one in front of any blank. -/
theorem Lexeme.Cut.before_blank {t : Token} {text rest : List Char} (h : Cut (.token t) text rest)
    (hb : isBlank b = true) (more : List Char) : Cut (.token t) text (b :: more) := by
  cases h with
  | digits hc hrun _ hn => exact .digits hc hrun (by simpa using isDigit_of_isBlank hb) hn
  | word hc hrun _ => exact .word hc hrun (by simpa using isNamePart_of_isBlank hb)
  | string hinner => exact .string hinner
  | pair hm => exact .pair hm
  | single hm _ => exact .single hm (by simpa using ofPair?_of_isBlank hb _)

end

namespace Scans

variable {rest : List Char} {offset : Nat} {text : List Char} {ts : List Placed}

/-- Nothing has no tokens. -/
theorem eq_nil (h : Scans rest offset [] ts) : ts = [] := by
  generalize htext : ([] : List Char) = text at h
  cases h with
  | done => rfl
  | skip hcut _ | token hcut _ =>
    obtain ⟨c, cs, rfl⟩ := hcut.exists_cons
    cases htext

/-- A blank is a lexeme by itself if no blank follows. -/
theorem blank_cons_of_head? {b : Char} (hb : isBlank b = true)
    (hhead : ∀ d ∈ (text ++ rest).head?, isBlank d = false)
    (h : Scans rest (offset + b.utf8Size) text ts) : Scans rest offset (b :: text) ts := by
  have hcut : Cut .skipped [b] (text ++ rest) := .blanks hb (by simp) hhead
  exact .skip hcut (by simpa using h)

/-- **A blank in front** moves what follows. Blanks that are there already join it. -/
theorem blank_cons {b : Char} (hb : isBlank b = true) (hrest : ∀ d ∈ rest.head?, isBlank d = false)
    (h : Scans rest (offset + b.utf8Size) text ts) : Scans rest offset (b :: text) ts := by
  generalize hstart : offset + b.utf8Size = start at h
  cases h with
  | done =>
    subst hstart
    exact blank_cons_of_head? hb hrest (.done _)
  | @skip _ lexeme more _ hcut hmore =>
    subst hstart
    cases hcut with
    | @blanks c run _ hc hrun hstop =>
      have hjoined : ∀ d ∈ c :: run, isBlank d = true := List.forall_mem_cons.mpr ⟨hc, hrun⟩
      have hcut : Cut .skipped (b :: c :: run) (more ++ rest) := .blanks hb hjoined hstop
      refine .skip hcut ?_
      rwa [add_utf8Len_cons]
    | @comment run _ hrun hstop =>
      refine blank_cons_of_head? hb ?_ (.skip (.comment hrun hstop) hmore)
      rintro d ⟨⟩
      decide
  | token hcut hmore =>
    subst hstart
    obtain ⟨c, cs, rfl⟩ := hcut.exists_cons
    refine blank_cons_of_head? hb ?_ (.token hcut hmore)
    simpa using hcut.isBlank_head

/-- **A line feed behind** a text ends its last lexeme, also if that is a comment. -/
theorem append_lineFeed (h : Scans [] offset text ts)
    (hrest : ∀ d ∈ rest.head?, isBlank d = false) : Scans rest offset (text ++ ['\n']) ts := by
  induction h with
  | done offset => exact blank_cons (by decide) hrest (.done _)
  | @skip offset lexeme more ts hcut hmore ih =>
    rw [List.append_assoc]
    cases more with
    | cons d more => exact .skip (hcut.follow (.inl rfl)) ih
    | nil =>
      cases hcut with
      | @blanks c run _ hc hrun _ =>
        -- the line feed joins the blanks at the end
        obtain rfl := hmore.eq_nil
        have hjoined : ∀ d ∈ run ++ ['\n'], isBlank d = true :=
          List.forall_mem_append.mpr ⟨hrun, by simp [isBlank]⟩
        have hcut : Cut .skipped (c :: (run ++ ['\n'])) ([] ++ rest) := .blanks hc hjoined hrest
        have hscans : Scans rest offset (c :: (run ++ ['\n']) ++ []) [] := .skip hcut (.done _)
        rwa [List.append_nil] at hscans
      | comment hrun _ => exact .skip (.comment hrun (by simp)) ih
  | @token offset lexeme more t ts hcut hmore ih =>
    rw [List.append_assoc]
    cases more with
    | cons d more => exact .token (hcut.follow (.inl rfl)) ih
    | nil => exact .token (hcut.before_blank (by decide) rest) ih

/-- **Two texts with a separator between.** The tokens of both are found, those of the second at
their new places. -/
theorem join_semi {more : List Char} {us : List Placed} (h : Scans [] 0 text ts)
    (hmore : Scans [] 0 more us) :
    Scans [] 0 (text ++ '\n' :: ';' :: '\n' :: more)
      (ts ++ ⟨.mark .semi, ⟨utf8Len text + 1, utf8Len text + 2⟩⟩ ::
        us.map (Placed.relocate (· + (utf8Len text + 3)))) := by
  have hfirst : Scans (';' :: '\n' :: more ++ []) 0 (text ++ ['\n']) ts :=
    h.append_lineFeed (by simp [isBlank])
  have hoffset : 0 + utf8Len (text ++ ['\n']) = utf8Len text + 1 := by
    rw [Nat.zero_add, utf8Len_append]
    rfl
  have hsemi : Cut (.token (.mark .semi)) [';'] ('\n' :: more ++ []) :=
    .single rfl (by simp [Mark.ofPair?])
  have hsecond : Scans [] (utf8Len text + 2) ('\n' :: more)
      (us.map (Placed.relocate (· + (utf8Len text + 3)))) := by
    apply blank_cons (by decide) (by simp)
    have hshift := hmore.shift (utf8Len text + 3)
    rwa [Nat.zero_add] at hshift
  have hbehind : Scans [] (utf8Len text + 1) ([';'] ++ '\n' :: more) _ := .token hsemi hsecond
  rw [← hoffset] at hbehind
  have hall := hfirst.append hbehind
  rw [hoffset, List.append_assoc] at hall
  exact hall

end Scans

/-! ## Statements with separators between -/

/-- The tokens of a row are divided among its symbols. -/
theorem Spells.divided {row : List Symbol} {ts : List Placed} {vs : Values row}
    (h : Spells row ts vs) : Values.Each (fun s ts v => Spells [s] ts (v, ())) row ts vs :=
  h.each .single fun r _ _ hrhs _ => .reduce r hrhs

/-- A terminal is spelled by one token. -/
theorem Spells.exists_token {a : Terminal} {ts : List Placed} {v : a.Payload}
    (h : Spells [.terminal a] ts (v, ())) : ∃ t : Placed, ts = [t] ∧ t.token.terminal = a := by
  cases h with
  | token t hnil =>
    cases hnil
    exact ⟨t, rfl, rfl⟩

theorem Spells.exists_semi {ts : List Placed} {v : Unit}
    (h : Spells [.terminal (.mark .semi)] ts (v, ())) : ∃ span, ts = [⟨.mark .semi, span⟩] := by
  obtain ⟨⟨token, span⟩, rfl, ht⟩ := h.exists_token
  cases token <;> cases ht
  exact ⟨span, rfl⟩

variable {ts us : List Placed} {vs ws : List Stmt}

/-- Statements with separators between are one statement, or end with a separator and one more. -/
theorem Spells.stmts_cases (h : Spells [.nonterminal .stmts] ts (vs, ())) :
    (∃ s, vs = [s] ∧ Spells [.nonterminal .stmt] ts (s, ())) ∨
      ∃ us span us' before s, ts = us ++ ⟨.mark .semi, span⟩ :: us' ∧ vs = s :: before ∧
        Spells [.nonterminal .stmts] us (before, ()) ∧ Spells [.nonterminal .stmt] us' (s, ()) := by
  obtain ⟨r, parts, hr, hparts, hvs⟩ := h.exists_rule
  obtain rfl | rfl : r = .nextStmt ∨ r = .firstStmt := by
    simpa [Nonterminal.rules] using Nonterminal.mem_rules_iff.mpr hr
  · obtain ⟨us, _, rfl, hbefore, _, _, rfl, hsemi, us', _, rfl, hstmt, rfl⟩ := hparts.divided
    obtain ⟨span, rfl⟩ := hsemi.exists_semi
    exact Or.inr ⟨us, span, us', _, _, by simp, hvs, hbefore, hstmt⟩
  · obtain ⟨us, _, rfl, hstmt, rfl⟩ := hparts.divided
    rw [List.append_nil]
    exact Or.inl ⟨_, hvs, hstmt⟩

/-- **Statements go on behind a separator.** -/
theorem Spells.append_stmts (hts : Spells [.nonterminal .stmts] ts (vs, ()))
    (hus : Spells [.nonterminal .stmts] us (ws, ())) (span : Span) :
    Spells [.nonterminal .stmts] (ts ++ ⟨.mark .semi, span⟩ :: us) (ws ++ vs, ()) := by
  -- the statements of the second row are put behind one by one; they are collected in reverse
  induction ws generalizing us with
  | nil =>
    obtain ⟨s, hws, -⟩ | ⟨_, _, _, _, _, -, hws, -⟩ := hus.stmts_cases
    all_goals cases hws
  | cons s ws ih =>
    obtain ⟨s', hws, hstmt⟩ | ⟨us, span', us', before, s', rfl, hws, hbefore, hstmt⟩ :=
      hus.stmts_cases
    · cases hws
      exact .reduce .nextStmt (hts.cons (.token ⟨.mark .semi, span⟩ hstmt))
    · cases hws
      have hall := Spells.reduce .nextStmt ((ih hbefore).cons (.token ⟨.mark .semi, span'⟩ hstmt))
      rwa [List.append_assoc] at hall

/-- A program has no statements and no tokens, or it is a row of statements, perhaps with a
separator behind it. -/
theorem Program.spelledBy_iff {p : Program} :
    p.SpelledBy ts ↔ (p.body = [] ∧ ts = []) ∨
      ∃ reversed us, p.body = reversed.reverse ∧ Spells [.nonterminal .stmts] us (reversed, ()) ∧
        (ts = us ∨ ∃ span, ts = us ++ [⟨.mark .semi, span⟩]) := by
  constructor
  · intro h
    obtain ⟨r, parts, hr, hparts, hp⟩ := h.exists_rule
    obtain rfl : r = .program := by
      simpa [Nonterminal.rules] using Nonterminal.mem_rules_iff.mpr hr
    obtain ⟨us, _, rfl, hlist, rfl⟩ := hparts.divided
    rw [List.append_nil]
    obtain ⟨r, parts, hr, hparts, hbody⟩ := hlist.exists_rule
    obtain rfl | rfl | rfl : r = .noStmts ∨ r = .stmtsOnly ∨ r = .stmtsSemi := by
      simpa [Nonterminal.rules] using Nonterminal.mem_rules_iff.mpr hr
    · exact Or.inl ⟨(congrArg Program.body hp).trans hbody, hparts.divided⟩
    · obtain ⟨us, _, rfl, hstmts, rfl⟩ := hparts.divided
      exact Or.inr ⟨_, us, (congrArg Program.body hp).trans hbody, hstmts, Or.inl (by simp)⟩
    · obtain ⟨us, _, rfl, hstmts, _, _, rfl, hsemi, rfl⟩ := hparts.divided
      obtain ⟨span, rfl⟩ := hsemi.exists_semi
      exact Or.inr ⟨_, us, (congrArg Program.body hp).trans hbody, hstmts,
        Or.inr ⟨span, by simp⟩⟩
  · obtain ⟨body⟩ := p
    rintro (⟨hbody, rfl⟩ | ⟨reversed, us, hbody, hstmts, rfl | ⟨span, rfl⟩⟩)
    · subst hbody
      exact .reduce .program (.reduce .noStmts .nil)
    · subst hbody
      exact .reduce .program (.reduce .stmtsOnly hstmts)
    · subst hbody
      exact .reduce .program (.reduce .stmtsSemi (hstmts.cons (.single ⟨.mark .semi, span⟩)))

/-- Two programs with a separator between are one program, unless the first one has no tokens or
ends with a separator of its own. -/
theorem Program.SpelledBy.append {p q : Program} (hp : p.SpelledBy ts) (hq : q.SpelledBy us)
    {last : Placed} (hlast : ts.getLast? = some last) (hsemi : last.token ≠ .mark .semi)
    (span : Span) :
    Program.SpelledBy ⟨p.body ++ q.body⟩ (ts ++ ⟨.mark .semi, span⟩ :: us) := by
  obtain ⟨-, rfl⟩ | ⟨vs, _, hpbody, hstmts, rfl | ⟨span', rfl⟩⟩ := Program.spelledBy_iff.mp hp
  · cases hlast
  · apply Program.spelledBy_iff.mpr
    right
    obtain ⟨hqbody, rfl⟩ | ⟨ws, us', hqbody, hmore, hus⟩ := Program.spelledBy_iff.mp hq
    · exact ⟨vs, ts, by simp [hpbody, hqbody], hstmts, Or.inr ⟨span, rfl⟩⟩
    · refine ⟨ws ++ vs, _, by simp [hpbody, hqbody], hstmts.append_stmts hmore span, ?_⟩
      obtain rfl | ⟨span', rfl⟩ := hus
      · exact Or.inl rfl
      · exact Or.inr ⟨span', by simp⟩
  · -- the last token is a separator
    obtain rfl : _ = last := by simpa using hlast
    exact absurd rfl hsemi

/-! ## Sources -/

/-- **Sources can be put together.** If two sources are read as programs, and the first one has
tokens and does not end with a separator, then both with a separator on a line of its own between
them are read as the statements of the first and those of the second, moved behind the first and
the three bytes between. -/
theorem Program.ofSource_append {s₁ s₂ : String} {body₁ body₂ : List Stmt} {ts : List Placed}
    {last : Placed} (h₁ : Program.ofSource s₁ = .ok ⟨body₁⟩)
    (h₂ : Program.ofSource s₂ = .ok ⟨body₂⟩) (hts : scan s₁.toList = .ok ts)
    (hlast : ts.getLast? = some last) (hsemi : last.token ≠ .mark .semi) :
    Program.ofSource (s₁ ++ "\n;\n" ++ s₂) =
      .ok ⟨body₁ ++ body₂.map (Stmt.shift (s₁.utf8ByteSize + 3))⟩ := by
  obtain ⟨ts', hscans₁, hspelled₁⟩ := Program.ofSource_eq_ok_iff_scans.mp h₁
  obtain ⟨us, hscans₂, hspelled₂⟩ := Program.ofSource_eq_ok_iff_scans.mp h₂
  obtain rfl : ts' = ts := Except.ok.inj ((scan_eq_ok_iff.mpr hscans₁).symm.trans hts)
  have hsize : utf8Len s₁.toList = s₁.utf8ByteSize := by
    rw [← String.utf8ByteSize_ofList, String.ofList_toList]
  have htext : (s₁ ++ "\n;\n" ++ s₂).toList = s₁.toList ++ '\n' :: ';' :: '\n' :: s₂.toList := by
    rw [String.toList_append, String.toList_append, List.append_assoc]
    rfl
  have hscans := hscans₁.join_semi hscans₂
  rw [← htext, hsize] at hscans
  have hmoved : Program.SpelledBy ⟨body₂.map (Stmt.shift (s₁.utf8ByteSize + 3))⟩ _ :=
    Spells.relocate (monotone_add (s₁.utf8ByteSize + 3)) hspelled₂
  exact Program.ofSource_eq_ok_iff_scans.mpr ⟨_, hscans, hspelled₁.append hmoved hlast hsemi _⟩

/-- An open statement with a comment up to the end of the source, and behind it a source that starts
with a blank, or a source without tokens. -/
theorem Program.ofSource_append_openStmt :
    ∃ (s₁ s₂ : String) (body₁ : List Stmt) (ts : List Placed) (last : Placed),
      s₁ = "if true then exit// é" ∧ s₂ = " break" ∧
      body₁ = [.ifThen ⟨0, 17⟩ (.bool ⟨3, 7⟩ true) (.exit_ ⟨13, 17⟩)] ∧
      Program.ofSource s₁ = .ok ⟨body₁⟩ ∧ Program.ofSource s₂ = .ok ⟨[.break_ ⟨1, 6⟩]⟩ ∧
      Program.ofSource "" = .ok ⟨[]⟩ ∧ scan s₁.toList = .ok ts ∧ ts.getLast? = some last ∧
      last.token ≠ .mark .semi ∧
      Program.ofSource (s₁ ++ "\n;\n" ++ s₂) = .ok ⟨body₁ ++ [.break_ ⟨26, 31⟩]⟩ ∧
      Program.ofSource (s₁ ++ "\n;\n" ++ "") = .ok ⟨body₁⟩ := by
  have hscan₁ : scan "if true then exit// é".toList = .ok [⟨.word .if_, ⟨0, 2⟩⟩,
      ⟨.word .true_, ⟨3, 7⟩⟩, ⟨.word .then_, ⟨8, 12⟩⟩, ⟨.word .exit_, ⟨13, 17⟩⟩] := by
    with_unfolding_all rfl
  have hscan₂ : scan " break".toList = .ok [⟨.word .break_, ⟨1, 6⟩⟩] := by with_unfolding_all rfl
  have htrue := Spells.expr_of_primary (.reduce .true_ (.single ⟨.word .true_, ⟨3, 7⟩⟩))
  have hexit := Spells.reduce .anyClosed (.reduce .simple (.reduce .exit_
    (.single ⟨.word .exit_, ⟨13, 17⟩⟩)))
  have hif := Spells.reduce .anyOpen (.reduce .ifThen (.token ⟨.word .if_, ⟨0, 2⟩⟩
    (htrue.cons (.token ⟨.word .then_, ⟨8, 12⟩⟩ hexit))))
  have hbreak := Spells.reduce .anyClosed (.reduce .simple (.reduce .break_
    (.single ⟨.word .break_, ⟨1, 6⟩⟩)))
  have hprogram {t : List Placed} {s : Stmt} (hs : Spells [.nonterminal .stmt] t (s, ())) :
      Program.SpelledBy ⟨[s]⟩ t := .reduce .program (.reduce .stmtsOnly (.reduce .firstStmt hs))
  have h₁ := ofSource_eq_ok_iff.mpr ⟨_, hscan₁, ofTokens_of_spelledBy (hprogram hif)⟩
  have h₂ := ofSource_eq_ok_iff.mpr ⟨_, hscan₂, ofTokens_of_spelledBy (hprogram hbreak)⟩
  have h₃ : Program.ofSource "" = .ok ⟨[]⟩ := Program.ofSource_eq_ok_iff_scans.mpr
    ⟨[], .done 0, Program.spelledBy_iff.mpr (Or.inl ⟨rfl, rfl⟩)⟩
  have hsemi : Token.word .exit_ ≠ .mark .semi := by decide
  exact ⟨_, _, _, _, _, rfl, rfl, rfl, h₁, h₂, h₃, hscan₁, rfl, hsemi,
    Program.ofSource_append h₁ h₂ hscan₁ rfl hsemi, Program.ofSource_append h₁ h₃ hscan₁ rfl hsemi⟩

end Scriptling

import Scriptling.Proofs.Token.MaximalMunch

/-!
# Where scanning fails

A scan fails at the first place at which a lexeme is wrong. There are three ways to be wrong, and
each can be told from the characters at this place: a string is not closed up to the end
(`Lexeme.Unclosed`), a number is too large (`Lexeme.TooLarge`), or a character starts no lexeme
(`Lexeme.Stray`). What was scanned before is a text in its own right: a lexeme does not become
longer when what follows it is left out (`Scans.closed`).
-/

namespace Scriptling

/-- A mark of two characters starts with a mark of one, or else is one of `:=` and `!=`. -/
theorem Mark.ofChar?_of_ofPair? {c d : Char} {m : Mark} (h : Mark.ofPair? c d = some m) :
    (∃ m', Mark.ofChar? c = some m') ∨ (c = ':' ∨ c = '!') ∧ d = '=' := by
  unfold Mark.ofPair? at h
  split at h
  case h_7 => cases h
  all_goals simp [Mark.ofChar?]

namespace Lexeme

/-! ## Three ways to be wrong -/

/-- A string with no quote but the first one, up to the end. -/
def Unclosed (text behind : List Char) : Prop :=
  (∃ inner, text = '"' :: inner ∧ '"' ∉ inner) ∧ behind = []

/-- All digits that are there, with a value that does not fit. -/
structure TooLarge (text behind : List Char) : Prop where
  /-- there are only digits -/
  digits : text ∈ Pattern.digits
  /-- no digit follows -/
  stops : ∀ d ∈ behind.head?, d.isDigit = false
  /-- the value is too large -/
  value : 2 ^ 63 ≤ Text.digitsValue text

/-- A character by which no lexeme starts, also not together with the next one. -/
structure StrayChar (c : Char) (behind : List Char) : Prop where
  /-- it is no blank -/
  blank : c ≠ ' ' ∧ c ≠ '\t' ∧ c ≠ '\n' ∧ c ≠ '\r' ∧ c ≠ '\x0c'
  /-- it is no letter -/
  letter : c.isAlpha = false
  /-- it is no underscore -/
  underscore : c ≠ '_'
  /-- it is no digit -/
  digit : c.isDigit = false
  /-- it is no quote -/
  quote : c ≠ '"'
  /-- it is no mark -/
  mark : ∀ m : Mark, m.text.toList ≠ [c]
  /-- it is not the first character of a mark -/
  pair : c = ':' ∨ c = '!' → behind.head? ≠ some '='

/-- One character, which is stray. -/
def Stray (text behind : List Char) : Prop :=
  ∃ c, text = [c] ∧ StrayChar c behind

variable {text behind : List Char} {c : Char}

/-- No lexeme starts with a stray character. -/
theorem StrayChar.not_prefix (h : StrayChar c behind) {w : List Char} (hw : w ∈ Pattern.any) :
    ¬ w <+: c :: behind := by
  have hword (hw : w ∈ Pattern.word) : ¬ w <+: c :: behind := by
    obtain ⟨d, run, rfl, hd, -⟩ := Pattern.mem_run.mp hw
    intro hprefix
    obtain ⟨rfl, -⟩ := List.cons_prefix_cons.mp hprefix
    simp [isNameStart, h.letter, h.underscore] at hd
  obtain (hblanks | hcomment) | ((((hreserved | hw) | hdigits) | hstring) | hmark) := hw
  · obtain ⟨d, run, rfl, hd, -⟩ := Pattern.mem_run.mp hblanks
    intro hprefix
    obtain ⟨rfl, -⟩ := List.cons_prefix_cons.mp hprefix
    simp [isBlank, h.blank] at hd
  · obtain ⟨run, rfl, -⟩ := Pattern.mem_comment.mp hcomment
    intro hprefix
    obtain ⟨rfl, -⟩ := List.cons_prefix_cons.mp hprefix
    exact h.mark .slash rfl
  · exact hword (Pattern.mem_word_of_reserved hreserved)
  · exact hword hw
  · obtain ⟨d, run, rfl, hd, -⟩ := Pattern.mem_run.mp hdigits
    intro hprefix
    obtain ⟨rfl, -⟩ := List.cons_prefix_cons.mp hprefix
    simp [h.digit] at hd
  · obtain ⟨inner, rfl, -⟩ := Pattern.mem_string.mp hstring
    intro hprefix
    obtain ⟨hquote, -⟩ := List.cons_prefix_cons.mp hprefix
    exact h.quote hquote.symm
  · obtain ⟨m, rfl⟩ := hmark
    intro hprefix
    obtain ⟨d, hd, -⟩ | ⟨d, d', hd, hm⟩ := m.toList_text
    · rw [hd] at hprefix
      obtain ⟨rfl, -⟩ := List.cons_prefix_cons.mp hprefix
      exact h.mark m hd
    · rw [hd] at hprefix
      obtain ⟨rfl, hnext⟩ := List.cons_prefix_cons.mp hprefix
      obtain ⟨m', hm'⟩ | ⟨hc, rfl⟩ := Mark.ofChar?_of_ofPair? hm
      · exact h.mark m' (Mark.toList_text_of_ofChar? hm')
      · obtain ⟨more, rfl⟩ := hnext
        exact h.pair hc rfl

theorem Unclosed.not_tooLarge (h : Unclosed text behind) : ¬ TooLarge text behind := by
  intro hlarge
  obtain ⟨⟨inner, rfl, -⟩, -⟩ := h
  obtain ⟨d, run, htext, hd, -⟩ := Pattern.mem_run.mp hlarge.digits
  obtain ⟨rfl, -⟩ := List.cons.inj htext
  exact absurd hd (by decide)

theorem Unclosed.not_stray (h : Unclosed text behind) : ¬ Stray text behind := by
  rintro ⟨c, rfl, hstray⟩
  obtain ⟨⟨inner, htext, -⟩, -⟩ := h
  exact hstray.quote (List.cons.inj htext).1

theorem TooLarge.not_stray (h : TooLarge text behind) : ¬ Stray text behind := by
  rintro ⟨c, rfl, hstray⟩
  obtain ⟨d, run, htext, hd, -⟩ := Pattern.mem_run.mp h.digits
  obtain ⟨rfl, -⟩ := List.cons.inj htext
  exact absurd hd (by simp [hstray.digit])

/-! ## What the scanner finds wrong -/

/-- The text has this fault, and what follows bears it out. -/
inductive FaultAt : ScanFault → (text behind : List Char) → Prop
  /-- a string -/
  | string {text behind : List Char} : Unclosed text behind →
      FaultAt .unterminatedString text behind
  /-- a number -/
  | number {text behind : List Char} : TooLarge text behind →
      FaultAt (.numberTooLarge text) text behind
  /-- a character -/
  | char {c : Char} {behind : List Char} : StrayChar c behind → FaultAt (.strayChar c) [c] behind

/-- A row of digits is wrong only for its value. -/
theorem faultAt_of_number {run rest : List Char} {f : ScanFault} (hrun : run ∈ Pattern.digits)
    (hrest : ∀ d ∈ rest.head?, d.isDigit = false) (h : number run = .wrong f) :
    FaultAt f run rest := by
  rcases hn : Text.readDigits? run with _ | n
  · rw [number, hn] at h
    cases h
    refine .number ⟨hrun, hrest, ?_⟩
    by_contra hlt
    have hfits : Text.digitsValue run < 2 ^ 63 := Nat.lt_of_not_le hlt
    have hsome := Text.readDigits?_eq_some_iff.mpr
      ⟨Pattern.isDigits_of_mem hrun, Int64.toInt_ofNat_of_lt hfits⟩
    rw [hn] at hsome
    cases hsome
  · rw [number, hn] at h
    cases h

theorem faultAt_of_string {cs : List Char} {f : ScanFault} (h : (string cs).is = .wrong f) :
    FaultAt f (string cs).text (string cs).rest := by
  unfold string at h ⊢
  rcases hdrop : cs.dropWhile (· ≠ '"') with _ | ⟨quote, rest⟩
  · rw [hdrop] at h
    cases h
    refine .string ⟨⟨cs, rfl, fun hmem => ?_⟩, rfl⟩
    simpa using List.dropWhile_eq_nil_iff.mp hdrop '"' hmem
  · rw [hdrop] at h
    cases h

/-- A character that is in no class and is no mark is stray. -/
theorem StrayChar.of_ofChar? (hblank : isBlank c = false) (hdigit : c.isDigit = false)
    (hname : isNameStart c = false) (hquote : c ≠ '"') (hmark : Mark.ofChar? c = none)
    (hpair : ∀ d ∈ behind.head?, Mark.ofPair? c d = none) : StrayChar c behind := by
  simp only [isNameStart, Bool.or_eq_false_iff, decide_eq_false_iff_not] at hname
  refine ⟨?_, hname.1, hname.2, hdigit, hquote, fun m htext => ?_, fun hc hhead => ?_⟩
  · simpa [isBlank, and_assoc] using hblank
  · obtain ⟨d, hd, hm⟩ | ⟨d, d', hd, -⟩ := m.toList_text
    · obtain rfl : d = c := by simpa using hd.symm.trans htext
      rw [hmark] at hm
      cases hm
    · cases hd.symm.trans htext
  · have hnone := hpair '=' hhead
    obtain rfl | rfl := hc
    all_goals cases hnone

theorem faultAt_of_single {c : Char} {cs : List Char} {f : ScanFault}
    (hstray : Mark.ofChar? c = none → StrayChar c cs) (h : (single c cs).is = .wrong f) :
    FaultAt f (single c cs).text (single c cs).rest := by
  rcases hm : Mark.ofChar? c with _ | m
  · simp only [single, hm] at h ⊢
    cases h
    exact .char (hstray hm)
  · simp only [single, hm] at h
    cases h

theorem faultAt_of_mark {c : Char} {cs : List Char} {f : ScanFault} (hblank : isBlank c = false)
    (hdigit : c.isDigit = false) (hname : isNameStart c = false) (hquote : c ≠ '"')
    (h : (mark c cs).is = .wrong f) : FaultAt f (mark c cs).text (mark c cs).rest := by
  have hstray (hpair : ∀ d ∈ cs.head?, Mark.ofPair? c d = none) (hmark : Mark.ofChar? c = none) :
      StrayChar c cs := .of_ofChar? hblank hdigit hname hquote hmark hpair
  rcases cs with _ | ⟨d, cs⟩
  · exact faultAt_of_single (hstray (by simp)) h
  · rw [mark] at h ⊢
    rcases hm : Mark.ofPair? c d with _ | m
    · rw [hm] at h
      exact faultAt_of_single (hstray (by simpa using hm)) h
    · rw [hm] at h
      cases h

/-- What the scanner finds wrong is so. -/
theorem faultAt_of_first {c : Char} {cs : List Char} {f : ScanFault}
    (h : (first c cs).is = .wrong f) : FaultAt f (first c cs).text (first c cs).rest := by
  unfold first at h ⊢
  -- blanks, comments and words are never wrong
  split_ifs at h ⊢ with hblank hcomment hdigit hname hquote
  · have hrun : takeRun Char.isDigit c cs ∈ Pattern.digits :=
      Pattern.mem_run.mpr ⟨c, _, rfl, hdigit, fun _ => List.mem_takeWhile_imp⟩
    exact faultAt_of_number hrun (fun _ => Text.eq_false_of_mem_head?_dropWhile) h
  · exact faultAt_of_string h
  · exact faultAt_of_mark (by simpa using hblank) (by simpa using hdigit) (by simpa using hname)
      hquote h

/-- The first character is enough to find the words for a fault. -/
theorem FaultAt.message_eq {f : ScanFault} (h : FaultAt f text behind) :
    f.message = ScanFault.words text := by
  cases h with
  | string h =>
    obtain ⟨⟨inner, htext, -⟩, -⟩ := h
    have hquote : text.head? = some '"' := congrArg List.head? htext
    exact (if_pos hquote).symm
  | number h =>
    obtain ⟨d, run, htext, hd, -⟩ := Pattern.mem_run.mp h.digits
    have hhead : text.head? = some d := congrArg List.head? htext
    have hquote : text.head? ≠ some '"' := by
      rintro hquote
      obtain rfl := Option.some.inj (hhead.symm.trans hquote)
      exact absurd hd (by decide)
    have hdigit : text.head?.any Char.isDigit = true := by rw [hhead, Option.any_some, hd]
    exact ((if_neg hquote).trans (if_pos hdigit)).symm
  | @char c _ h =>
    have hquote : [c].head? ≠ some '"' := fun heq => h.quote (Option.some.inj heq)
    have hdigit : ¬ [c].head?.any Char.isDigit = true := by
      rw [List.head?_cons, Option.any_some, h.digit]
      exact Bool.false_ne_true
    exact ((if_neg hquote).trans (if_neg hdigit)).symm

/-! ## What was scanned before -/

/-- A lexeme stays one if all that follows it is left out. -/
theorem Cut.at_end {k : LexemeClass} {text rest : List Char} (h : Cut k text rest) :
    Cut k text [] := by
  cases k with
  | skipped =>
    cases h with
    | blanks hc hrun _ => exact .blanks hc hrun (by simp)
    | comment hrun _ => exact .comment hrun (by simp)
  | token t => exact h.follow (.inr ⟨⟨t, rfl⟩, by simp [Stops]⟩)
  | wrong => cases h

/-- A lexeme stays one if the end of what follows it is left out. -/
theorem Cut.closed {k : LexemeClass} {text more rest : List Char} (h : Cut k text (more ++ rest)) :
    Cut k text more := by
  cases more with
  | nil => exact h.at_end
  | cons d more => exact h.follow (.inl rfl)

end Lexeme

open Lexeme (Unclosed TooLarge Stray)

/-- **A text that was scanned in front of another one is scanned by itself**, to the same tokens. -/
theorem Scans.closed {rest : List Char} {offset : Nat} {text : List Char} {ts : List Placed}
    (h : Scans rest offset text ts) : Scans [] offset text ts := by
  induction h with
  | done => exact .done _
  | skip hcut _ ih =>
    refine .skip ?_ ih
    rw [List.append_nil]
    exact hcut.closed
  | token hcut _ ih =>
    refine .token ?_ ih
    rw [List.append_nil]
    exact hcut.closed

/-- **Failures of the scanner are located and told apart.** If a scan fails, then the source before
the place that it reports can be scanned, and at this place stands one of three things, with the
words for it: a string that is not closed, with all that follows it; a number that is too large,
with all of its digits; or a single character that starts no lexeme. It is never two of them, and
the words are those that the first character there stands for. -/
theorem scan_error_classified (source : String) (e : ScanError)
    (h : scan source.toList = .error e) :
    ∃ before text behind : String, source = before ++ text ++ behind ∧
      e.span = ⟨before.utf8ByteSize, before.utf8ByteSize + text.utf8ByteSize⟩ ∧
      (∃ ts, scan before.toList = .ok ts) ∧
      e.fault.message = ScanFault.words text.toList ∧
      ((Unclosed text.toList behind.toList ∧ ¬ TooLarge text.toList behind.toList ∧
          ¬ Stray text.toList behind.toList ∧ e.span.stop = source.utf8ByteSize ∧
          e.fault.message = "unterminated string literal") ∨
        (TooLarge text.toList behind.toList ∧ ¬ Unclosed text.toList behind.toList ∧
          ¬ Stray text.toList behind.toList ∧
          e.fault.message = "integer literal out of range: " ++ text) ∨
        (Stray text.toList behind.toList ∧ ¬ Unclosed text.toList behind.toList ∧
          ¬ TooLarge text.toList behind.toList ∧
          (∀ w ∈ Pattern.any, ¬ w <+: text.toList ++ behind.toList) ∧
          e.fault.message = "unexpected character: " ++ Text.quote text)) := by
  obtain ⟨before, c, cs, ts, hsource, hscans, hwrong, hspan⟩ := Scans.of_scanFrom_error h
  have hfault := Lexeme.faultAt_of_first hwrong
  rw [← Lexeme.text_append_rest c cs] at hsource
  generalize (Lexeme.first c cs).text = text at hsource hfault hspan
  generalize (Lexeme.first c cs).rest = behind at hsource hfault
  have hsource : source = String.ofList before ++ String.ofList text ++ String.ofList behind := by
    rw [← String.ofList_append, ← String.ofList_append, List.append_assoc, ← hsource,
      String.ofList_toList]
  refine ⟨.ofList before, .ofList text, .ofList behind, hsource, ?_, ⟨ts, ?_⟩, ?_, ?_⟩
  · rw [hspan, Nat.zero_add, ← String.utf8ByteSize_ofList, ← String.utf8ByteSize_ofList]
  · rw [String.toList_ofList]
    exact scan_eq_ok_iff.mpr hscans.closed
  · rw [String.toList_ofList]
    exact hfault.message_eq
  · simp only [String.toList_ofList]
    obtain ⟨fault, span⟩ := e
    cases hfault with
    | string hunclosed =>
      refine Or.inl ⟨hunclosed, hunclosed.not_tooLarge, hunclosed.not_stray, ?_, rfl⟩
      obtain ⟨-, rfl⟩ := hunclosed
      rw [hspan, hsource]
      simp [String.utf8ByteSize_ofList]
    | number hlarge =>
      exact Or.inr (Or.inl ⟨hlarge, fun h => h.not_tooLarge hlarge, hlarge.not_stray, rfl⟩)
    | char hstray =>
      have hstray' : Stray _ behind := ⟨_, rfl, hstray⟩
      exact Or.inr (Or.inr ⟨hstray', fun h => h.not_stray hstray', fun h => h.not_stray hstray',
        fun w hw => hstray.not_prefix hw, rfl⟩)

/-- A letter of two bytes behind a string that holds another one. -/
theorem scan_error_classified_twoBytes :
    ∃ (source : String) (e : ScanError), source = "x := \"é\" ü;" ∧
      scan source.toList = .error e ∧ e = ⟨.strayChar 'ü', ⟨10, 12⟩⟩ ∧
      ∃ before text behind : String, source = before ++ text ++ behind ∧
        e.span = ⟨before.utf8ByteSize, before.utf8ByteSize + text.utf8ByteSize⟩ ∧
        (∃ ts, scan before.toList = .ok ts) ∧ Stray text.toList behind.toList ∧
        e.fault.message = "unexpected character: " ++ Text.quote text := by
  have hscan : scan "x := \"é\" ü;".toList = .error ⟨.strayChar 'ü', ⟨10, 12⟩⟩ := by
    with_unfolding_all rfl
  refine ⟨_, _, rfl, hscan, rfl, ?_⟩
  obtain ⟨before, text, behind, hsource, hspan, hbefore, -, hcase⟩ :=
    scan_error_classified _ _ hscan
  refine ⟨before, text, behind, hsource, hspan, hbefore, ?_⟩
  obtain ⟨-, -, -, hstop, -⟩ | ⟨-, -, -, hmessage⟩ | ⟨hstray, -, -, -, hmessage⟩ := hcase
  · -- a semicolon follows
    exact absurd hstop (by decide)
  · -- the words begin with another letter
    change "unexpected character: " ++ Text.quote (String.ofList ['ü']) = _ at hmessage
    generalize Text.quote (String.ofList ['ü']) = quoted at hmessage
    have hchars := congrArg String.toList hmessage
    rw [String.toList_append, String.toList_append] at hchars
    exact absurd (List.cons.inj hchars).1 (by decide)
  · exact ⟨hstray, hmessage⟩

end Scriptling

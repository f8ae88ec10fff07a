import Mathlib.Computability.Language
import Scriptling.Proofs.Syntax.Spans
import Scriptling.Proofs.Token.Writable

/-!
# Maximal munch

What tokens look like can be said by patterns, each for itself and without a word about how
they are found: `Pattern.digits`, `Pattern.word` and so on are languages of characters. A text
is then cut by one principle. A lexeme is the longest beginning of the text that is in any
pattern (`Lexeme.Longest`), and what it is in the stream of tokens depends on its own
characters alone (`Lexeme.Means`).

The scanner looks at one or two characters to decide which kind of lexeme starts, and never
comes back to the decision. It is right because no text of another pattern that starts in the
same way is longer (`Lexeme.length_le_first`). So its lexemes are those of the principle, and
its tokens are theirs (`scan_maximal_munch`).
-/

namespace Scriptling

open String (utf8Len utf8Len_append)
open scoped Computability

open Lexeme (Cut)

/-! ## Patterns -/

namespace Pattern

/-- One character of a class. -/
def one (p : Char → Bool) : Language Char :=
  {w | ∃ c, p c = true ∧ w = [c]}

/-- One character of a class, and any number of another class behind it. -/
def run (p q : Char → Bool) : Language Char :=
  one p * (one q)∗

/-- Blanks. -/
def blanks : Language Char :=
  run isBlank isBlank

/-- A comment, which ends before the line does. -/
def comment : Language Char :=
  {"//".toList} * (one (· ≠ '\n'))∗

/-- A number. -/
def digits : Language Char :=
  run Char.isDigit Char.isDigit

/-- A name, or a word that looks like one. -/
def word : Language Char :=
  run isNameStart isNamePart

/-- A reserved word. -/
def reserved : Language Char :=
  {w | ∃ k : Keyword, w = k.text.toList}

/-- A string. -/
def string : Language Char :=
  {"\"".toList} * (one (· ≠ '"'))∗ * {"\"".toList}

/-- A punctuation mark. -/
def mark : Language Char :=
  {w | ∃ m : Mark, w = m.text.toList}

/-- What is skipped. -/
def skipped : Language Char :=
  blanks + comment

/-- What is a token. -/
def token : Language Char :=
  reserved + word + digits + string + mark

/-- What is a lexeme. -/
def any : Language Char :=
  skipped + token

theorem mem_any_of_blanks {w : List Char} (h : w ∈ blanks) : w ∈ any :=
  Or.inl (Or.inl h)

theorem mem_any_of_comment {w : List Char} (h : w ∈ comment) : w ∈ any :=
  Or.inl (Or.inr h)

theorem mem_any_of_word {w : List Char} (h : w ∈ word) : w ∈ any :=
  Or.inr (Or.inl (Or.inl (Or.inl (Or.inr h))))

theorem mem_any_of_digits {w : List Char} (h : w ∈ digits) : w ∈ any :=
  Or.inr (Or.inl (Or.inl (Or.inr h)))

theorem mem_any_of_string {w : List Char} (h : w ∈ string) : w ∈ any :=
  Or.inr (Or.inl (Or.inr h))

theorem mem_any_of_mark {w : List Char} (h : w ∈ mark) : w ∈ any :=
  Or.inr (Or.inr h)

theorem mem_kstar_one {p : Char → Bool} {w : List Char} :
    w ∈ (one p)∗ ↔ ∀ d ∈ w, p d = true := by
  rw [Language.mem_kstar]
  constructor
  · rintro ⟨parts, rfl, hparts⟩ d hd
    obtain ⟨part, hpart, hd⟩ := List.mem_flatten.mp hd
    obtain ⟨c, hc, rfl⟩ := hparts part hpart
    obtain rfl := List.mem_singleton.mp hd
    exact hc
  · intro hw
    refine ⟨w.map fun d => [d], ?_, fun part hpart => ?_⟩
    · rw [← List.flatMap_def, List.flatMap_singleton']
    · obtain ⟨d, hd, rfl⟩ := List.mem_map.mp hpart
      exact ⟨d, hw d hd, rfl⟩

theorem mem_run {p q : Char → Bool} {w : List Char} :
    w ∈ run p q ↔ ∃ c cs, w = c :: cs ∧ p c = true ∧ ∀ d ∈ cs, q d = true := by
  rw [run, Language.mem_mul]
  constructor
  · rintro ⟨_, ⟨c, hc, rfl⟩, cs, hcs, rfl⟩
    exact ⟨c, cs, rfl, hc, mem_kstar_one.mp hcs⟩
  · rintro ⟨c, cs, rfl, hc, hcs⟩
    exact ⟨[c], ⟨c, hc, rfl⟩, cs, mem_kstar_one.mpr hcs, rfl⟩

theorem mem_comment {w : List Char} :
    w ∈ comment ↔ ∃ cs, w = '/' :: '/' :: cs ∧ '\n' ∉ cs := by
  rw [comment, Language.mem_mul]
  constructor
  · rintro ⟨_, rfl, cs, hcs, rfl⟩
    refine ⟨cs, rfl, fun hmem => ?_⟩
    simpa using mem_kstar_one.mp hcs _ hmem
  · rintro ⟨cs, rfl, hcs⟩
    refine ⟨_, rfl, cs, mem_kstar_one.mpr fun d hd => ?_, rfl⟩
    exact decide_eq_true (fun hnl => hcs (hnl ▸ hd))

theorem mem_string {w : List Char} :
    w ∈ string ↔ ∃ inner, w = '"' :: inner ++ ['"'] ∧ '"' ∉ inner := by
  rw [string, Language.mem_mul]
  constructor
  · rintro ⟨_, ⟨_, rfl, inner, hinner, rfl⟩, _, rfl, rfl⟩
    refine ⟨inner, rfl, fun hmem => ?_⟩
    simpa using mem_kstar_one.mp hinner _ hmem
  · rintro ⟨inner, rfl, hinner⟩
    refine ⟨'"' :: inner, ⟨_, rfl, inner, mem_kstar_one.mpr fun d hd => ?_, rfl⟩, _, rfl, rfl⟩
    exact decide_eq_true (fun hquote => hinner (hquote ▸ hd))

/-- A run goes on with the next character of its class. -/
theorem run_append {p q : Char → Bool} {w : List Char} {d : Char} (hw : w ∈ run p q)
    (hd : q d = true) : w ++ [d] ∈ run p q := by
  obtain ⟨c, cs, rfl, hc, hcs⟩ := mem_run.mp hw
  refine mem_run.mpr ⟨c, cs ++ [d], rfl, hc, fun d' hd' => ?_⟩
  obtain hd' | hd' := List.mem_append.mp hd'
  · exact hcs d' hd'
  · obtain rfl := List.mem_singleton.mp hd'
    exact hd

theorem isDigits_of_mem {w : List Char} (h : w ∈ digits) : Text.isDigits w = true := by
  obtain ⟨c, run, rfl, hc, hrun⟩ := mem_run.mp h
  exact Text.isDigits_iff.mpr ⟨List.cons_ne_nil c run, List.forall_mem_cons.mpr ⟨hc, hrun⟩⟩

theorem mem_word {w : List Char} : w ∈ word ↔ Lexeme.isWord w = true := by
  rw [word, mem_run]
  cases w with
  | nil => simp [Lexeme.isWord]
  | cons c cs => simp [Lexeme.isWord]

/-- Reserved words look like names. -/
theorem mem_word_of_reserved {w : List Char} (hw : w ∈ reserved) : w ∈ word := by
  obtain ⟨k, rfl⟩ := hw
  exact mem_word.mpr (Lexeme.isWord_keyword k)

end Pattern

theorem Mark.toList_text_of_ofPair? {c d : Char} {m : Mark} (h : Mark.ofPair? c d = some m) :
    m.text.toList = [c, d] := by
  unfold Mark.ofPair? at h
  split at h
  case h_7 => cases h
  all_goals
    obtain rfl := Option.some.inj h
    rfl

theorem Mark.toList_text_of_ofChar? {c : Char} {m : Mark} (h : Mark.ofChar? c = some m) :
    m.text.toList = [c] := by
  unfold Mark.ofChar? at h
  split at h
  case h_13 => cases h
  all_goals
    obtain rfl := Option.some.inj h
    rfl

namespace Lexeme

/-! ## No pattern goes further than the scanner -/

theorem length_le_takeRun {p : Char → Bool} {c : Char} {run cs : List Char}
    (hrun : ∀ d ∈ run, p d = true) (h : run <+: cs) :
    (c :: run).length ≤ (takeRun p c cs).length := by
  obtain ⟨more, rfl⟩ := h
  rw [takeRun, List.takeWhile_append_of_pos hrun]
  simp

/-- Where the scanner takes a run, no run is longer. -/
theorem length_le_first_of_run {p q : Char → Bool}
    (hfirst : ∀ c cs, p c = true → (first c cs).text = takeRun q c cs) {w : List Char}
    (hw : w ∈ Pattern.run p q) {c : Char} {cs : List Char} (h : w <+: c :: cs) :
    w.length ≤ (first c cs).text.length := by
  obtain ⟨c, run, rfl, hc, hrun⟩ := Pattern.mem_run.mp hw
  obtain ⟨rfl, hprefix⟩ := List.cons_prefix_cons.mp h
  rw [hfirst c cs hc]
  exact length_le_takeRun hrun hprefix

/-- **The scanner goes furthest.** Nothing with which the text starts is in a pattern and longer
than what the scanner finds. -/
theorem length_le_first {w : List Char} (hw : w ∈ Pattern.any) {c : Char} {cs : List Char}
    (h : w <+: c :: cs) : w.length ≤ (first c cs).text.length := by
  have hword (hw : w ∈ Pattern.word) : w.length ≤ (first c cs).text.length :=
    length_le_first_of_run (fun c cs hc => by rw [first_of_isNameStart hc]) hw h
  obtain (hblanks | hcomment) | ((((hreserved | hw) | hdigits) | hstring) | hmark) := hw
  · exact length_le_first_of_run (fun c cs hc => by rw [first_of_isBlank hc]) hblanks h
  · obtain ⟨run, rfl, hrun⟩ := Pattern.mem_comment.mp hcomment
    obtain ⟨rfl, more, rfl⟩ := List.cons_prefix_cons.mp h
    have hline : ∀ d ∈ '/' :: run, decide (d ≠ '\n') = true := by
      intro d hd
      obtain rfl | hd := List.mem_cons.mp hd
      · decide
      · exact decide_eq_true (fun hnl => hrun (hnl ▸ hd))
    rw [List.cons_append, first_of_slashes, ← List.cons_append]
    exact length_le_takeRun hline (List.prefix_append _ _)
  · exact hword (Pattern.mem_word_of_reserved hreserved)
  · exact hword hw
  · exact length_le_first_of_run (fun c cs hc => by rw [first_of_isDigit hc]) hdigits h
  · -- with its closing quote in sight a string is found as it is
    obtain ⟨inner, rfl, hinner⟩ := Pattern.mem_string.mp hstring
    obtain ⟨rest, hrest⟩ := h
    obtain ⟨c', cs', htext, hfirst⟩ := (@Cut.string inner rest hinner).first_eq
    obtain ⟨rfl, rfl⟩ : c = c' ∧ cs = cs' := List.cons.inj (hrest.symm.trans htext)
    rw [hfirst]
  · obtain ⟨m, rfl⟩ := hmark
    obtain ⟨d, hd, -⟩ | ⟨d, d', hd, hm⟩ := m.toList_text
    · rw [hd]
      exact List.length_pos_iff.mpr (text_ne_nil c cs)
    · rw [hd] at h ⊢
      obtain ⟨rest, hrest⟩ := h
      obtain ⟨rfl, rfl⟩ : d = c ∧ d' :: rest = cs := List.cons.inj hrest
      rw [first_of_ofPair? hm]

/-! ## The longest lexeme -/

/-- What a lexeme is, told from its characters. -/
inductive Means : (text : List Char) → LexemeClass → Prop
  /-- blanks and comments are skipped -/
  | skipped {text : List Char} : text ∈ Pattern.skipped → Means text .skipped
  /-- a word that is spelled like a reserved one is this one -/
  | reserved (k : Keyword) : Means k.text.toList (.token (.word k))
  /-- any other word is a name -/
  | name {text : List Char} : text ∈ Pattern.word → text ∉ Pattern.reserved →
      Means text (.token (.name (String.ofList text)))
  /-- digits are the number that they stand for -/
  | digits {text : List Char} {n : Int64} : text ∈ Pattern.digits →
      n.toInt = Text.digitsValue text → Means text (.token (.int n))
  /-- a string is what stands between its quotes -/
  | string {inner : List Char} : '"' :: inner ++ ['"'] ∈ Pattern.string →
      Means ('"' :: inner ++ ['"']) (.token (.str (String.ofList inner)))
  /-- a mark is itself -/
  | mark (m : Mark) : Means m.text.toList (.token (.mark m))

/-- With `rest` behind it, `text` is the longest beginning that is in any pattern. -/
structure Longest (text rest : List Char) : Prop where
  /-- it is in a pattern -/
  mem : text ∈ Pattern.any
  /-- no longer beginning is -/
  length_le : ∀ w ∈ Pattern.any, w <+: text ++ rest → w.length ≤ text.length

/-- With the next character the longest lexeme would be none. -/
theorem Longest.append_not_mem {text rest : List Char} (h : Longest text rest) {d : Char}
    (hd : d ∈ rest.head?) : text ++ [d] ∉ Pattern.any := by
  intro hmem
  obtain ⟨more, rfl⟩ := List.head?_eq_some_iff.mp hd
  have hle := h.length_le _ hmem ⟨more, by simp⟩
  simp at hle

theorem Means.mem_any {text : List Char} {k : LexemeClass} (h : Means text k) :
    text ∈ Pattern.any := by
  cases h with
  | skipped hmem => exact Or.inl hmem
  | reserved k => exact Pattern.mem_any_of_word (Pattern.mem_word_of_reserved ⟨k, rfl⟩)
  | name hmem => exact Pattern.mem_any_of_word hmem
  | digits hmem => exact Pattern.mem_any_of_digits hmem
  | string hmem => exact Pattern.mem_any_of_string hmem
  | mark m => exact Pattern.mem_any_of_mark ⟨m, rfl⟩

/-- A word is what its characters say. -/
theorem means_word {text : List Char} (h : text ∈ Pattern.word) :
    Means text (.token (word text)) := by
  rw [word]
  rcases hk : Keyword.ofText? (String.ofList text) with _ | k
  · refine .name h ?_
    rintro ⟨k, htext⟩
    refine Keyword.ofText?_eq_none_iff.mp hk k ?_
    rw [htext, String.ofList_toList]
  · have hspelled : k.text = String.ofList text := by
      simpa using List.find?_some hk
    have htext : text = k.text.toList := by rw [hspelled, String.toList_ofList]
    rw [htext]
    exact .reserved k

theorem Cut.means {k : LexemeClass} {text rest : List Char} (h : Cut k text rest) :
    Means text k := by
  cases h with
  | blanks hc hrun _ => exact .skipped (Or.inl (Pattern.mem_run.mpr ⟨_, _, rfl, hc, hrun⟩))
  | comment hrun _ => exact .skipped (Or.inr (Pattern.mem_comment.mpr ⟨_, rfl, hrun⟩))
  | @digits c run _ n hc hrun _ hn =>
    have hdigits : c :: run ∈ Pattern.digits := Pattern.mem_run.mpr ⟨c, run, rfl, hc, hrun⟩
    exact .digits hdigits (Text.readDigits?_eq_some_iff.mp hn).2
  | word hc hrun _ => exact means_word (Pattern.mem_run.mpr ⟨_, _, rfl, hc, hrun⟩)
  | string hinner => exact .string (Pattern.mem_string.mpr ⟨_, rfl, hinner⟩)
  | @pair c d _ m hm =>
    rw [← Mark.toList_text_of_ofPair? hm]
    exact .mark m
  | @single c _ m hm _ =>
    rw [← Mark.toList_text_of_ofChar? hm]
    exact .mark m

theorem Cut.longest {k : LexemeClass} {text rest : List Char} (h : Cut k text rest) :
    Longest text rest := by
  refine ⟨h.means.mem_any, fun w hw hprefix => ?_⟩
  obtain ⟨c, cs, htext, hfirst⟩ := h.first_eq
  rw [htext] at hprefix
  have hle := length_le_first hw hprefix
  rwa [hfirst] at hle

/-- Behind a longest run comes no other character of its class. -/
theorem Longest.run_stops {p q : Char → Bool} (hany : ∀ w ∈ Pattern.run p q, w ∈ Pattern.any)
    {text rest : List Char} (h : Longest text rest) (hmem : text ∈ Pattern.run p q) :
    ∀ d ∈ rest.head?, q d = false := by
  intro d hd
  by_contra hq
  refine h.append_not_mem hd (hany _ ?_)
  exact Pattern.run_append hmem (by simpa using hq)

theorem Longest.cut_word {text rest : List Char} (h : Longest text rest)
    (hmem : text ∈ Pattern.word) : Cut (.token (Lexeme.word text)) text rest :=
  .of_isWord (Pattern.mem_word.mp hmem) (h.run_stops (fun _ => Pattern.mem_any_of_word) hmem)

/-- The longest lexeme is cut off. -/
theorem Longest.cut {k : LexemeClass} {text rest : List Char} (h : Longest text rest)
    (hk : Means text k) : Cut k text rest := by
  cases hk with
  | skipped hmem =>
    obtain hblanks | hcomment := hmem
    · obtain ⟨c, run, rfl, hc, hrun⟩ := Pattern.mem_run.mp hblanks
      exact .blanks hc hrun (h.run_stops (fun _ => Pattern.mem_any_of_blanks) hblanks)
    · obtain ⟨run, rfl, hrun⟩ := Pattern.mem_comment.mp hcomment
      refine .comment hrun fun d hd => ?_
      by_contra hline
      refine h.append_not_mem hd (Pattern.mem_any_of_comment ?_)
      exact Pattern.mem_comment.mpr ⟨run ++ [d], rfl, by simp [hrun, Ne.symm hline]⟩
  | reserved k =>
    rw [← word_keyword k]
    exact h.cut_word (Pattern.mem_word_of_reserved ⟨k, rfl⟩)
  | name hmem hreserved =>
    have hname : IsName (String.ofList text) := by
      refine ⟨by rwa [String.toList_ofList, ← Pattern.mem_word], fun k hk => hreserved ⟨k, ?_⟩⟩
      rw [hk, String.toList_ofList]
    have hword := hname.word_eq
    rw [String.toList_ofList] at hword
    rw [← hword]
    exact h.cut_word hmem
  | @digits _ n hmem hn =>
    obtain ⟨c, run, rfl, hc, hrun⟩ := Pattern.mem_run.mp hmem
    exact .digits hc hrun (h.run_stops (fun _ => Pattern.mem_any_of_digits) hmem)
      (Text.readDigits?_eq_some_iff.mpr ⟨Pattern.isDigits_of_mem hmem, hn⟩)
  | @string inner hmem =>
    obtain ⟨inner', hinner', hquote⟩ := Pattern.mem_string.mp hmem
    obtain rfl : inner = inner' := by simpa using hinner'
    exact .string hquote
  | mark m =>
    obtain ⟨c, hc, hm⟩ | ⟨c, d, hcd, hm⟩ := m.toList_text
    · rw [hc] at h ⊢
      refine .single hm fun d hd => ⟨?_, ?_⟩
      · -- a mark of two characters would be longer
        rw [Option.eq_none_iff_forall_not_mem]
        intro m' hm'
        have htext := Mark.toList_text_of_ofPair? hm'
        exact h.append_not_mem hd (Pattern.mem_any_of_mark ⟨m', htext.symm⟩)
      · -- and so would a comment
        rintro ⟨rfl, rfl⟩
        have hcomment : ['/', '/'] ∈ Pattern.comment := Pattern.mem_comment.mpr ⟨[], rfl, by simp⟩
        exact h.append_not_mem hd (Pattern.mem_any_of_comment hcomment)
    · rw [hcd]
      exact .pair hm

/-- Digits are cut off only if they stand for a number that fits. -/
theorem Cut.digitsValue_lt {k : LexemeClass} {text rest : List Char} (h : Cut k text rest)
    (hmem : text ∈ Pattern.digits) : Text.digitsValue text < 2 ^ 63 := by
  have hnumber : k = number text := by
    obtain ⟨c, run, rfl, hc, hrun⟩ := Pattern.mem_run.mp hmem
    obtain ⟨c', cs, htext, hfirst⟩ := h.first_eq
    obtain ⟨rfl, rfl⟩ : c = c' ∧ run ++ rest = cs := List.cons.inj htext
    rw [first_of_isDigit hc, Lexeme.mk.injEq] at hfirst
    rw [← hfirst.1, hfirst.2.1]
  rcases hn : Text.readDigits? text with _ | n
  · -- a number that does not fit is no lexeme
    rw [hnumber, number, hn] at h
    cases h
  · have hlt := n.toInt_lt
    rw [(Text.readDigits?_eq_some_iff.mp hn).2] at hlt
    exact Int.ofNat_lt.mp hlt

/-! ## Whole texts -/

/-- Each lexeme has characters, and with those behind it, it is the longest one. -/
def Munched : List (List Char) → Prop
  | [] => True
  | lexeme :: more => lexeme ≠ [] ∧ Longest lexeme more.flatten ∧ Munched more

/-- The lexemes from the offset on, of which those that are not skipped are these tokens. -/
inductive Tokens : (offset : Nat) → (lexemes : List (List Char)) → List Placed → Prop
  /-- nothing -/
  | nil (offset : Nat) : Tokens offset [] []
  /-- a lexeme that is skipped -/
  | skip {offset : Nat} {lexeme : List Char} {more : List (List Char)} {ts : List Placed} :
      Means lexeme .skipped → Tokens (offset + utf8Len lexeme) more ts →
      Tokens offset (lexeme :: more) ts
  /-- a lexeme that is a token -/
  | token {offset : Nat} {lexeme : List Char} {more : List (List Char)} {t : Token}
      {ts : List Placed} :
      Means lexeme (.token t) → Tokens (offset + utf8Len lexeme) more ts →
      Tokens offset (lexeme :: more) (⟨t, ⟨offset, offset + utf8Len lexeme⟩⟩ :: ts)

end Lexeme

open Lexeme (Means Munched Tokens)

/-- A scan cuts off the longest lexemes. -/
theorem Scans.exists_munched {offset : Nat} {text : List Char} {ts : List Placed}
    (h : Scans [] offset text ts) :
    ∃ lexemes : List (List Char), lexemes.flatten = text ∧ Munched lexemes ∧
      Tokens offset lexemes ts := by
  induction h with
  | done offset => exact ⟨[], rfl, trivial, .nil offset⟩
  | skip hcut _ ih =>
    obtain ⟨lexemes, rfl, hmunched, htokens⟩ := ih
    rw [List.append_nil] at hcut
    obtain ⟨c, cs, rfl⟩ := hcut.exists_cons
    exact ⟨(c :: cs) :: lexemes, rfl, ⟨List.cons_ne_nil c cs, hcut.longest, hmunched⟩,
      .skip hcut.means htokens⟩
  | token hcut _ ih =>
    obtain ⟨lexemes, rfl, hmunched, htokens⟩ := ih
    rw [List.append_nil] at hcut
    obtain ⟨c, cs, rfl⟩ := hcut.exists_cons
    exact ⟨(c :: cs) :: lexemes, rfl, ⟨List.cons_ne_nil c cs, hcut.longest, hmunched⟩,
      .token hcut.means htokens⟩

/-- The tokens of longest lexemes are scanned. -/
theorem Lexeme.Tokens.scans {offset : Nat} {lexemes : List (List Char)} {ts : List Placed}
    (h : Tokens offset lexemes ts) (hmunched : Munched lexemes) :
    Scans [] offset lexemes.flatten ts := by
  induction h with
  | nil offset => exact .done offset
  | skip hmeans _ ih =>
    obtain ⟨-, hlongest, hmore⟩ := hmunched
    rw [← List.append_nil (List.flatten _)] at hlongest
    exact .skip (hlongest.cut hmeans) (ih hmore)
  | token hmeans _ ih =>
    obtain ⟨-, hlongest, hmore⟩ := hmunched
    rw [← List.append_nil (List.flatten _)] at hlongest
    exact .token (hlongest.cut hmeans) (ih hmore)

/-- Where there are tokens, no number is too large. -/
theorem Lexeme.Tokens.digitsValue_lt {offset : Nat} {lexemes : List (List Char)}
    {ts : List Placed} (h : Tokens offset lexemes ts) (hmunched : Munched lexemes) :
    ∀ l ∈ lexemes, l ∈ Pattern.digits → Text.digitsValue l < 2 ^ 63 := by
  induction h with
  | nil => simp
  | skip hmeans _ ih | token hmeans _ ih =>
    obtain ⟨-, hlongest, hmore⟩ := hmunched
    exact List.forall_mem_cons.mpr ⟨(hlongest.cut hmeans).digitsValue_lt, ih hmore⟩

/-! ## Where tokens stand -/

namespace Placed

/-- Where the tokens start, or `n` if there are none. -/
def startOr (n : Nat) (ts : List Placed) : Nat :=
  (ts.head?.map (·.span.start)).getD n

/-- Where the tokens stop, or `n` if there are none. -/
def stopOr (n : Nat) (ts : List Placed) : Nat :=
  (ts.getLast?.map (·.span.stop)).getD n

/-- The tokens are spread over the source: in order, each at a text of its own, and with
nothing but blanks and comments before, between and behind them. -/
structure Spread (source : String) (ts : List Placed) : Prop where
  /-- no token is empty -/
  start_lt_stop : ∀ t ∈ ts, t.span.start < t.span.stop
  /-- later tokens start later and stop later -/
  increasing : ts.Pairwise fun t u => t.span.start < u.span.start ∧ t.span.stop < u.span.stop
  /-- no two tokens overlap -/
  disjoint : ts.Pairwise fun t u => t.span.stop ≤ u.span.start
  /-- a token stands where its text does -/
  text : ∀ t ∈ ts, ∃ text : String,
    t.span.Holds source text ∧ Means text.toList (.token t.token)
  /-- from one token to the next, all is skipped -/
  gap : ∀ pre post, ts = pre ++ post → ∃ gap : String,
    Span.Holds ⟨stopOr 0 pre, startOr source.utf8ByteSize post⟩ source gap ∧
      gap.toList ∈ Pattern.skipped∗

end Placed

/-- Characters in the middle of a text stand at the span that the bytes before them say. -/
theorem Span.holds_of_append {source : String} {before text behind : List Char}
    (h : source.toList = before ++ text ++ behind) :
    Span.Holds ⟨utf8Len before, utf8Len before + utf8Len text⟩ source
      (String.ofList text) := by
  refine ⟨String.ofList before, String.ofList behind, ?_, ?_, ?_⟩
  · rw [← String.ofList_append, ← String.ofList_append, ← h, String.ofList_toList]
  · exact (String.utf8ByteSize_ofList before).symm
  · simp only [String.utf8ByteSize_ofList]

/-- In the text at the offset, the token stands at characters that mean it. -/
def Placed.StandsIn (offset : Nat) (text : List Char) (t : Placed) : Prop :=
  ∃ before lexeme behind, text = before ++ lexeme ++ behind ∧
    t.span = ⟨offset + utf8Len before, offset + utf8Len before + utf8Len lexeme⟩ ∧
    Means lexeme (.token t.token)

theorem Placed.StandsIn.append_left {offset : Nat} {first more : List Char} {t : Placed}
    (h : t.StandsIn (offset + utf8Len first) more) : t.StandsIn offset (first ++ more) := by
  obtain ⟨before, lexeme, behind, rfl, hspan, hmeans⟩ := h
  refine ⟨first ++ before, lexeme, behind, by simp, ?_, hmeans⟩
  rw [hspan, utf8Len_append, Nat.add_assoc offset]

namespace Scans

variable {rest : List Char} {offset : Nat} {text : List Char} {ts : List Placed}

theorem standsIn (h : Scans rest offset text ts) : ∀ t ∈ ts, t.StandsIn offset text := by
  induction h with
  | done => simp
  | skip _ _ ih => exact fun t ht => (ih t ht).append_left
  | @token offset lexeme more t ts hcut _ ih =>
    refine List.forall_mem_cons.mpr ⟨?_, fun t ht => (ih t ht).append_left⟩
    exact ⟨[], lexeme, more, rfl, rfl, hcut.means⟩

/-- Up to the first token all is skipped. -/
theorem exists_leading_gap (h : Scans rest offset text ts) :
    ∃ gap behind, text = gap ++ behind ∧ gap ∈ Pattern.skipped∗ ∧
      Placed.startOr (offset + utf8Len text) ts = offset + utf8Len gap := by
  induction h with
  | done => exact ⟨[], [], rfl, Language.nil_mem_kstar _, rfl⟩
  | @skip offset first more ts hcut _ ih =>
    obtain ⟨gap, behind, rfl, hgap, hstart⟩ := ih
    refine ⟨first ++ gap, behind, by simp, ?_, ?_⟩
    · cases hcut.means with
      | skipped hfirst =>
        rw [← Language.one_add_self_mul_kstar_eq_kstar]
        exact Or.inr (Language.append_mem_mul hfirst hgap)
    · rw [utf8Len_append first gap, ← Nat.add_assoc, ← hstart, utf8Len_append first,
        Nat.add_assoc]
  | @token offset lexeme more t ts hcut _ ih =>
    exact ⟨[], lexeme ++ more, rfl, Language.nil_mem_kstar _, rfl⟩

/-- Between two tokens that follow one another, all is skipped. -/
theorem exists_gap {pre post : List Placed} (h : Scans rest offset text (pre ++ post)) :
    ∃ before gap behind, text = before ++ gap ++ behind ∧ gap ∈ Pattern.skipped∗ ∧
      Placed.stopOr offset pre = offset + utf8Len before ∧
      Placed.startOr (offset + utf8Len text) post =
        offset + utf8Len before + utf8Len gap := by
  by_cases hpre : pre = []
  · subst hpre
    obtain ⟨gap, behind, rfl, hgap, hstart⟩ := exists_leading_gap h
    exact ⟨[], gap, behind, rfl, hgap, rfl, hstart⟩
  · obtain ⟨c, cs, behind, rfl, -, hbehind, hstop⟩ := h.cut_behind rfl hpre
    obtain ⟨gap, behind, rfl, hgap, hstart⟩ := hbehind.exists_leading_gap
    refine ⟨c :: cs, gap, behind, by simp, hgap, ?_, ?_⟩
    · have hlast := List.getLast?_eq_some_getLast hpre
      rw [Placed.stopOr, hlast]
      exact hstop _ hlast
    · rw [← hstart, utf8Len_append (c :: cs), Nat.add_assoc]

theorem spread {source : String} (h : Scans [] 0 source.toList ts) :
    Placed.Spread source ts where
  start_lt_stop := h.ordered.start_lt_stop
  increasing := by
    refine h.ordered.pairwise.imp_of_mem fun {t u} ht hu hle => ?_
    have htpos := h.ordered.start_lt_stop t ht
    have hupos := h.ordered.start_lt_stop u hu
    omega
  disjoint := h.ordered.pairwise
  text t ht := by
    obtain ⟨before, lexeme, behind, hsource, hspan, hmeans⟩ := h.standsIn t ht
    refine ⟨String.ofList lexeme, ?_, by rwa [String.toList_ofList]⟩
    rw [hspan, Nat.zero_add]
    exact Span.holds_of_append hsource
  gap pre post hts := by
    subst hts
    obtain ⟨before, gap, behind, hsource, hgap, hstop, hstart⟩ := h.exists_gap
    refine ⟨String.ofList gap, ?_, by rwa [String.toList_ofList]⟩
    rw [Nat.zero_add, ← String.utf8ByteSize_ofList, String.ofList_toList, Nat.zero_add] at hstart
    rw [hstop, hstart, Nat.zero_add]
    exact Span.holds_of_append hsource

end Scans

/-- **Maximal munch.** The scanner accepts a source, with certain tokens, exactly if the source is a
row of lexemes, each the longest possible one in front of the rest, in which no number is too
large, and the tokens are those lexemes that are not skipped, with their places. So tokens are
spread over the source: none is empty, they are in order and apart, each stands at a text, and
all between them is blanks and comments. -/
theorem scan_maximal_munch (source : String) (ts : List Placed) :
    (scan source.toList = .ok ts ↔
      ∃ lexemes : List (List Char), lexemes.flatten = source.toList ∧ Munched lexemes ∧
        (∀ l ∈ lexemes, l ∈ Pattern.digits → Text.digitsValue l < 2 ^ 63) ∧
        Tokens 0 lexemes ts) ∧
    (scan source.toList = .ok ts → Placed.Spread source ts) := by
  rw [scan_eq_ok_iff]
  refine ⟨⟨fun h => ?_, ?_⟩, Scans.spread⟩
  · obtain ⟨lexemes, hsource, hmunched, htokens⟩ := h.exists_munched
    exact ⟨lexemes, hsource, hmunched, htokens.digitsValue_lt hmunched, htokens⟩
  · rintro ⟨lexemes, hsource, hmunched, -, htokens⟩
    rw [← hsource]
    exact htokens.scans hmunched

/-- A word that only begins like a reserved one, a mark that begins with another one, and a
comment with a letter of two bytes. -/
theorem scan_maximal_munch_glued :
    ∃ (source : String) (ts : List Placed), source = "if1<=7// é\nif" ∧
      scan source.toList = .ok ts ∧
      ts = [⟨.name "if1", ⟨0, 3⟩⟩, ⟨.mark .ltEq, ⟨3, 5⟩⟩, ⟨.int 7, ⟨5, 6⟩⟩,
        ⟨.word .if_, ⟨12, 14⟩⟩] ∧
      (∃ lexemes : List (List Char), lexemes.flatten = source.toList ∧ Munched lexemes ∧
        (∀ l ∈ lexemes, l ∈ Pattern.digits → Text.digitsValue l < 2 ^ 63) ∧
        Tokens 0 lexemes ts) ∧
      Placed.Spread source ts := by
  let ts : List Placed := [⟨.name "if1", ⟨0, 3⟩⟩, ⟨.mark .ltEq, ⟨3, 5⟩⟩, ⟨.int 7, ⟨5, 6⟩⟩,
    ⟨.word .if_, ⟨12, 14⟩⟩]
  have hscan : scan "if1<=7// é\nif".toList = .ok ts := by with_unfolding_all rfl
  obtain ⟨hiff, hspread⟩ := scan_maximal_munch "if1<=7// é\nif" ts
  exact ⟨_, ts, rfl, hscan, rfl, hiff.mp hscan, hspread hscan⟩

end Scriptling

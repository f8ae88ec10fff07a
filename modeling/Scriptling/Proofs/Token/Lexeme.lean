import Scriptling.Proofs.Text.Runs
import Scriptling.Token.Scan

/-!
# Lexemes

`Lexeme.first` says how a lexeme is found; `Lexeme.Cut` says what one is. With `rest` behind
it, `text` is cut off as a lexeme of a class: it is of the form of the class, and what
follows does not prolong it. What is cut off is found (`Lexeme.Cut.first_eq`), and what is
found is cut off unless it is wrong (`Lexeme.cut_of_first`).

Whether a text is a lexeme depends on no more than the first character behind it. So a lexeme
stays one when something else follows that starts in the same way, and a token stays one
in front of a blank, of a closing parenthesis and of the end (`Lexeme.Cut.follow`).
-/

namespace Scriptling

namespace Lexeme

open Text (takeWhile_append_of_run dropWhile_append_of_run eq_false_of_mem_head?_dropWhile)

/-- With `rest` behind it, `text` is cut off as a lexeme of the class. -/
inductive Cut : LexemeClass → (text rest : List Char) → Prop
  /-- a run of blanks -/
  | blanks {c : Char} {run rest : List Char} (hc : isBlank c = true)
      (hrun : ∀ d ∈ run, isBlank d = true) (hrest : ∀ d ∈ rest.head?, isBlank d = false) :
      Cut .skipped (c :: run) rest
  /-- a comment, up to the end of the line -/
  | comment {run rest : List Char} (hrun : '\n' ∉ run) (hrest : ∀ d ∈ rest.head?, d = '\n') :
      Cut .skipped ('/' :: '/' :: run) rest
  /-- a row of digits whose number fits -/
  | digits {c : Char} {run rest : List Char} {n : Int64} (hc : c.isDigit = true)
      (hrun : ∀ d ∈ run, d.isDigit = true) (hrest : ∀ d ∈ rest.head?, d.isDigit = false)
      (hn : Text.readDigits? (c :: run) = some n) :
      Cut (.token (.int n)) (c :: run) rest
  /-- a reserved word or a name -/
  | word {c : Char} {run rest : List Char} (hc : isNameStart c = true)
      (hrun : ∀ d ∈ run, isNamePart d = true) (hrest : ∀ d ∈ rest.head?, isNamePart d = false) :
      Cut (.token (Lexeme.word (c :: run))) (c :: run) rest
  /-- a string with its quotes -/
  | string {inner rest : List Char} (hinner : '"' ∉ inner) :
      Cut (.token (.str (String.ofList inner))) ('"' :: inner ++ ['"']) rest
  /-- a mark of two characters -/
  | pair {c d : Char} {rest : List Char} {m : Mark} (hm : Mark.ofPair? c d = some m) :
      Cut (.token (.mark m)) [c, d] rest
  /-- a mark of one character that starts neither one of two nor a comment -/
  | single {c : Char} {rest : List Char} {m : Mark} (hm : Mark.ofChar? c = some m)
      (hrest : ∀ d ∈ rest.head?, Mark.ofPair? c d = none ∧ ¬ (c = '/' ∧ d = '/')) :
      Cut (.token (.mark m)) [c] rest

/-! ## Classes of characters -/

theorem isBlank_eq_true_iff {c : Char} :
    isBlank c = true ↔ c = ' ' ∨ c = '\t' ∨ c = '\n' ∨ c = '\r' ∨ c = '\x0c' := by
  simp [isBlank, or_assoc]

theorem isBlank_of_isDigit {c : Char} (h : c.isDigit = true) : isBlank c = false := by
  rw [← Bool.not_eq_true, isBlank_eq_true_iff]
  rintro (rfl | rfl | rfl | rfl | rfl)
  all_goals exact absurd h (by decide)

theorem isBlank_of_isNameStart {c : Char} (h : isNameStart c = true) : isBlank c = false := by
  rw [← Bool.not_eq_true, isBlank_eq_true_iff]
  rintro (rfl | rfl | rfl | rfl | rfl)
  all_goals exact absurd h (by decide)

theorem isDigit_of_isNameStart {c : Char} (h : isNameStart c = true) : c.isDigit = false := by
  simp only [isNameStart, Bool.or_eq_true, decide_eq_true_eq] at h
  obtain hletter | rfl := h
  · have hc : 'A'.val ≤ c.val := by
      obtain hupper | hlower := Bool.or_eq_true_iff.mp hletter
      · exact (of_decide_eq_true hupper).1
      · exact UInt32.le_trans (by decide) (of_decide_eq_true (Bool.and_eq_true_iff.mp hlower).1)
    simp only [Char.isDigit, Bool.and_eq_false_iff, decide_eq_false_iff_not]
    right
    grind
  · decide

theorem first_of_isBlank {c : Char} (hc : isBlank c = true) (cs : List Char) :
    first c cs = ⟨.skipped, takeRun isBlank c cs, cs.dropWhile isBlank⟩ := by
  rw [first, if_pos hc]

theorem first_of_slashes (cs : List Char) :
    first '/' ('/' :: cs) = ⟨.skipped, takeRun (· ≠ '\n') '/' ('/' :: cs),
      ('/' :: cs).dropWhile (· ≠ '\n')⟩ := by
  rw [first, if_neg (by decide), if_pos (by simp)]

theorem first_of_isDigit {c : Char} (hc : c.isDigit = true) (cs : List Char) :
    first c cs = ⟨number (takeRun Char.isDigit c cs), takeRun Char.isDigit c cs,
      cs.dropWhile Char.isDigit⟩ := by
  have hslash : c ≠ '/' := by rintro rfl; exact absurd hc (by decide)
  rw [first, if_neg (by simp [isBlank_of_isDigit hc]), if_neg (by simp [hslash]), if_pos hc]

theorem first_of_isNameStart {c : Char} (hc : isNameStart c = true) (cs : List Char) :
    first c cs = ⟨.token (word (takeRun isNamePart c cs)), takeRun isNamePart c cs,
      cs.dropWhile isNamePart⟩ := by
  have hslash : c ≠ '/' := by rintro rfl; exact absurd hc (by decide)
  rw [first, if_neg (by simp [isBlank_of_isNameStart hc]), if_neg (by simp [hslash]),
    if_neg (by simp [isDigit_of_isNameStart hc]), if_pos hc]

/-- A character that starts no other lexeme starts a mark, if any. -/
theorem first_eq_mark {c : Char} {cs : List Char} (hblank : isBlank c = false)
    (hcomment : ¬ (c = '/' ∧ cs.head? = some '/')) (hdigit : c.isDigit = false)
    (hname : isNameStart c = false) (hquote : c ≠ '"') : first c cs = mark c cs := by
  simp [first, hblank, hcomment, hdigit, hname, hquote]

theorem first_of_ofPair? {c d : Char} {m : Mark} (hm : Mark.ofPair? c d = some m)
    (rest : List Char) : first c (d :: rest) = ⟨.token (.mark m), [c, d], rest⟩ := by
  have hmark : first c (d :: rest) = mark c (d :: rest) := by
    unfold Mark.ofPair? at hm
    split at hm
    case h_7 => cases hm
    all_goals exact first_eq_mark (by decide) (by simp) (by decide) (by decide) (by decide)
  rw [hmark, mark, hm]

theorem first_of_ofChar? {c : Char} {m : Mark} (hm : Mark.ofChar? c = some m)
    {rest : List Char}
    (hrest : ∀ d ∈ rest.head?, Mark.ofPair? c d = none ∧ ¬ (c = '/' ∧ d = '/')) :
    first c rest = ⟨.token (.mark m), [c], rest⟩ := by
  have hmark : first c rest = mark c rest := by
    have hcomment : ¬ (c = '/' ∧ rest.head? = some '/') := fun h => (hrest '/' h.2).2 ⟨h.1, rfl⟩
    unfold Mark.ofChar? at hm
    split at hm
    case h_13 => cases hm
    all_goals exact first_eq_mark (by decide) hcomment (by decide) (by decide) (by decide)
  rw [hmark]
  cases rest with
  | nil => simp only [mark, single, hm]
  | cons d rest => simp only [mark, single, hm, (hrest d rfl).1]

theorem ofPair?_eq_none (c : Char) {d : Char} (heq : d ≠ '=') (hgt : d ≠ '>') :
    Mark.ofPair? c d = none := by
  unfold Mark.ofPair?
  split
  case h_7 => rfl
  all_goals contradiction

/-! ## What is found is what is there -/

/-- A lexeme is found. -/
theorem Cut.first_eq {k : LexemeClass} {text rest : List Char} (h : Cut k text rest) :
    ∃ c cs, text ++ rest = c :: cs ∧ first c cs = ⟨k, text, rest⟩ := by
  cases h with
  | @blanks c run _ hc hrun hrest =>
    refine ⟨c, run ++ rest, rfl, ?_⟩
    rw [first_of_isBlank hc, takeRun, takeWhile_append_of_run hrun hrest,
      dropWhile_append_of_run hrun hrest]
  | @comment run _ hrun hrest =>
    have hrun : ∀ d ∈ '/' :: run, decide (d ≠ '\n') = true := by
      intro d hd
      obtain rfl | hd := List.mem_cons.mp hd
      · decide
      · exact decide_eq_true (fun hnl => hrun (hnl ▸ hd))
    have hrest : ∀ d ∈ rest.head?, decide (d ≠ '\n') = false := by simpa using hrest
    refine ⟨'/', '/' :: run ++ rest, rfl, ?_⟩
    rw [List.cons_append, first_of_slashes, takeRun, ← List.cons_append,
      takeWhile_append_of_run hrun hrest, dropWhile_append_of_run hrun hrest]
  | @digits c run _ n hc hrun hrest hn =>
    refine ⟨c, run ++ rest, rfl, ?_⟩
    rw [first_of_isDigit hc, takeRun, takeWhile_append_of_run hrun hrest,
      dropWhile_append_of_run hrun hrest, number, hn]
  | @word c run _ hc hrun hrest =>
    refine ⟨c, run ++ rest, rfl, ?_⟩
    rw [first_of_isNameStart hc, takeRun, takeWhile_append_of_run hrun hrest,
      dropWhile_append_of_run hrun hrest]
  | @string inner _ hinner =>
    have hrun : ∀ d ∈ inner, decide (d ≠ '"') = true :=
      fun d hd => decide_eq_true (fun hquote => hinner (hquote ▸ hd))
    have hrest : ∀ d ∈ ('"' :: rest).head?, decide (d ≠ '"') = false := by simp
    refine ⟨'"', inner ++ '"' :: rest, by simp, ?_⟩
    rw [first, if_neg (by decide), if_neg (by simp), if_neg (by decide), if_neg (by decide),
      if_pos rfl, Lexeme.string, dropWhile_append_of_run hrun hrest,
      takeWhile_append_of_run hrun hrest]
  | pair hm => exact ⟨_, _, rfl, first_of_ofPair? hm rest⟩
  | single hm hrest => exact ⟨_, _, rfl, first_of_ofChar? hm hrest⟩

theorem cut_of_string {cs : List Char} (h : ∀ f, (string cs).is ≠ .wrong f) :
    Cut (string cs).is (string cs).text (string cs).rest := by
  unfold string at h ⊢
  rcases hdrop : cs.dropWhile (· ≠ '"') with _ | ⟨quote, rest⟩
  · rw [hdrop] at h
    exact absurd rfl (h _)
  · obtain rfl : quote = '"' := by
      have hquote : quote ∈ (cs.dropWhile (· ≠ '"')).head? := by rw [hdrop]; rfl
      simpa using eq_false_of_mem_head?_dropWhile hquote
    exact .string (fun hmem => by simpa using List.mem_takeWhile_imp hmem)

theorem cut_of_single {c : Char} {cs : List Char} (h : ∀ f, (single c cs).is ≠ .wrong f)
    (hcs : ∀ d ∈ cs.head?, Mark.ofPair? c d = none ∧ ¬ (c = '/' ∧ d = '/')) :
    Cut (single c cs).is (single c cs).text (single c cs).rest := by
  unfold single at h ⊢
  rcases hm : Mark.ofChar? c with _ | m
  · rw [hm] at h
    exact absurd rfl (h _)
  · exact .single hm hcs

theorem cut_of_mark {c : Char} {cs : List Char} (h : ∀ f, (mark c cs).is ≠ .wrong f)
    (hcomment : ¬ (c = '/' ∧ cs.head? = some '/')) :
    Cut (mark c cs).is (mark c cs).text (mark c cs).rest := by
  rcases cs with _ | ⟨d, cs⟩
  · exact cut_of_single h (by simp)
  rw [mark] at h ⊢
  rcases hm : Mark.ofPair? c d with _ | m
  · rw [hm] at h
    refine cut_of_single h (fun d' hd' => ?_)
    obtain rfl := Option.some.inj hd'
    exact ⟨hm, fun hslash => hcomment ⟨hslash.1, congrArg some hslash.2⟩⟩
  · exact .pair hm

/-- What is found is a lexeme, unless it is wrong. -/
theorem cut_of_first {c : Char} {cs : List Char} {k : LexemeClass} (hk : (first c cs).is = k)
    (h : ∀ f, k ≠ .wrong f) : Cut k (first c cs).text (first c cs).rest := by
  subst hk
  unfold first at h ⊢
  split_ifs at h ⊢ with hblank hcomment hdigit hname hquote
  · exact .blanks hblank (fun _ => List.mem_takeWhile_imp) fun _ => eq_false_of_mem_head?_dropWhile
  · obtain ⟨rfl, hslash⟩ : c = '/' ∧ cs.head? = some '/' := by simpa using hcomment
    obtain ⟨cs, rfl⟩ := List.head?_eq_some_iff.mp hslash
    rw [takeRun, List.takeWhile_cons_of_pos (by decide), List.dropWhile_cons_of_pos (by decide)]
    refine .comment (fun hnl => ?_) (fun d hd => ?_)
    · exact absurd (List.mem_takeWhile_imp hnl) (by decide)
    · simpa using eq_false_of_mem_head?_dropWhile hd
  · rcases hn : Text.readDigits? (takeRun Char.isDigit c cs) with _ | n
    · rw [number, hn] at h
      exact absurd rfl (h _)
    · rw [number, hn]
      exact .digits hdigit (fun _ => List.mem_takeWhile_imp)
        (fun _ => eq_false_of_mem_head?_dropWhile) hn
  · exact .word hname (fun _ => List.mem_takeWhile_imp) fun _ => eq_false_of_mem_head?_dropWhile
  · exact cut_of_string h
  · exact cut_of_mark h (by simpa using hcomment)

theorem Cut.exists_cons {k : LexemeClass} {text rest : List Char} (h : Cut k text rest) :
    ∃ c cs, text = c :: cs := by
  cases h
  all_goals exact ⟨_, _, rfl⟩

/-! ## Words -/

/-- The form of words, reserved or not. -/
def isWord : List Char → Bool
  | [] => false
  | c :: cs => isNameStart c && cs.all isNamePart

theorem Cut.of_isWord {text rest : List Char} (h : isWord text = true)
    (hrest : ∀ d ∈ rest.head?, isNamePart d = false) :
    Cut (.token (Lexeme.word text)) text rest := by
  rcases text with _ | ⟨c, cs⟩
  · cases h
  · rw [isWord, Bool.and_eq_true, List.all_eq_true] at h
    exact .word h.1 h.2 hrest

theorem isWord_keyword (k : Keyword) : isWord k.text.toList = true := by
  cases k <;> decide

theorem word_keyword (k : Keyword) : Lexeme.word k.text.toList = .word k := by
  cases k <;> decide

/-! ## What follows a lexeme -/

/-- What may stand behind a token without prolonging it. -/
def Stops (rest : List Char) : Prop :=
  ∀ c ∈ rest.head?, c = ' ' ∨ c = ')'

/-- **Lexemes look one character ahead.** A lexeme stays one if something else follows that
starts in the same way, and a token stays one in front of a blank, a closing parenthesis
and the end. -/
theorem Cut.follow {k : LexemeClass} {text rest rest' : List Char} (h : Cut k text rest)
    (hrest' : rest'.head? = rest.head? ∨ (∃ t, k = .token t) ∧ Stops rest') :
    Cut k text rest' := by
  cases h with
  | blanks hc hrun hrest =>
    refine .blanks hc hrun ?_
    obtain hhead | ⟨⟨t, ht⟩, -⟩ := hrest'
    · rwa [hhead]
    · cases ht
  | comment hrun hrest =>
    refine .comment hrun ?_
    obtain hhead | ⟨⟨t, ht⟩, -⟩ := hrest'
    · rwa [hhead]
    · cases ht
  | digits hc hrun hrest hn =>
    refine .digits hc hrun ?_ hn
    obtain hhead | ⟨-, hstops⟩ := hrest'
    · rwa [hhead]
    · intro d hd
      obtain rfl | rfl := hstops d hd <;> decide
  | word hc hrun hrest =>
    refine .word hc hrun ?_
    obtain hhead | ⟨-, hstops⟩ := hrest'
    · rwa [hhead]
    · intro d hd
      obtain rfl | rfl := hstops d hd <;> decide
  | string hinner => exact .string hinner
  | pair hm => exact .pair hm
  | single hm hrest =>
    refine .single hm ?_
    obtain hhead | ⟨-, hstops⟩ := hrest'
    · rwa [hhead]
    · intro d hd
      obtain rfl | rfl := hstops d hd
      all_goals exact ⟨ofPair?_eq_none _ (by decide) (by decide), by simp⟩

end Lexeme

end Scriptling

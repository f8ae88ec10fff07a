import Mathlib.Data.String.Basic
import Scriptling.Proofs.Interpreter.Asking
import Scriptling.Proofs.Text.Numerals
import Scriptling.Proofs.Token.Lexeme

/-!
# Integers in and out

A program meets integers as text in three places: it writes them, it reads them from lines of input,
and its literals are rows of digits. Lines are read with the most liberty: white space around a
numeral does not count (`integerOfLine_eq_ok_iff`). What is written is a numeral, and so it is read
back (`integerOfLine_text`). A row of digits is a numeral too, and as a line it is read like a
literal (`integerOfLine_eq_ok_iff_scan`).

A literal has no sign. So the least integer is written and read, but there is no literal for it.
-/

namespace Scriptling

open String (utf8Len)
open Text (Trimmed Denotes isWhiteSpace)

variable {line : String} {n : Int64}

/-! ## Lines -/

theorem integerOfLine_eq_ok_iff_readInt? {core : List Char} (h : Trimmed line.toList core) :
    integerOfLine line = .ok (.int n) ↔ Text.readInt? core = some n := by
  rw [integerOfLine, Text.trim_eq_iff.mpr h]
  rcases Text.readInt? core with _ | m
  · simp
  · simp

/-- **A line is read** as the number that is in it, if the number fits. -/
theorem integerOfLine_eq_ok_iff :
    integerOfLine line = .ok (.int n) ↔
      ∃ core, Trimmed line.toList core ∧ Denotes core n.toInt := by
  constructor
  · intro h
    have htrim : Trimmed line.toList (Text.trim line.toList) := Text.trim_eq_iff.mp rfl
    rw [integerOfLine_eq_ok_iff_readInt? htrim, Text.readInt?_eq_some_iff] at h
    exact ⟨_, htrim, h⟩
  · rintro ⟨core, htrim, h⟩
    rwa [integerOfLine_eq_ok_iff_readInt? htrim, Text.readInt?_eq_some_iff]

/-- Else what is in it is reported. -/
theorem integerOfLine_cases (line : String) :
    (∃ n, integerOfLine line = .ok (.int n)) ∨ ∃ core, Trimmed line.toList core ∧
      integerOfLine line = .error (.notInteger (String.ofList core)) := by
  rw [integerOfLine]
  rcases Text.readInt? (Text.trim line.toList) with _ | n
  · exact Or.inr ⟨_, Text.trim_eq_iff.mp rfl, rfl⟩
  · exact Or.inl ⟨n, rfl⟩

/-- What is written is read back, with any white space around it. -/
theorem integerOfLine_text {before behind : String}
    (hbefore : ∀ c ∈ before.toList, isWhiteSpace c = true)
    (hbehind : ∀ c ∈ behind.toList, isWhiteSpace c = true) :
    integerOfLine (before ++ (Value.int n).text ++ behind) = .ok (.int n) := by
  have hdenotes : Denotes (Value.int n).text.toList n.toInt := Text.denotes_decimal n
  rw [integerOfLine_eq_ok_iff, String.toList_append, String.toList_append]
  exact ⟨_, hdenotes.trimmed hbefore hbehind, hdenotes⟩

/-! ## Literals -/

/-- A row of digits is a literal, or it is too large for one. -/
theorem scan_eq_of_isDigits {digits : List Char} (h : Text.isDigits digits = true) :
    scan digits = match Text.readDigits? digits with
      | some n => .ok [⟨.int n, ⟨0, utf8Len digits⟩⟩]
      | none => .error ⟨.numberTooLarge digits, ⟨0, utf8Len digits⟩⟩ := by
  obtain ⟨hne, hall⟩ := Text.isDigits_iff.mp h
  obtain ⟨c, run, rfl⟩ := List.exists_cons_of_ne_nil hne
  obtain ⟨hc, hrun⟩ := List.forall_mem_cons.mp hall
  have htake : Lexeme.takeRun Char.isDigit c run = c :: run := by
    rw [Lexeme.takeRun, List.takeWhile_eq_self_iff.mpr hrun]
  have hdrop : run.dropWhile Char.isDigit = [] := List.dropWhile_eq_nil_iff.mpr hrun
  rw [scan, scanFrom, Lexeme.first_of_isDigit hc, htake, hdrop, Lexeme.number, Nat.zero_add,
    String.utf8ByteSize_ofList]
  rcases Text.readDigits? (c :: run) with _ | n
  · rfl
  · simp [scanFrom]

/-- A row of digits that is a line is read like a literal. -/
theorem integerOfLine_eq_ok_iff_readDigits? (h : Text.isDigits line.toList = true) :
    integerOfLine line = .ok (.int n) ↔ Text.readDigits? line.toList = some n := by
  obtain ⟨hne, hall⟩ := Text.isDigits_iff.mp h
  have htrim : Trimmed ([] ++ line.toList ++ []) line.toList :=
    (Denotes.unsigned hne hall).trimmed (by simp) (by simp)
  rw [List.nil_append, List.append_nil] at htrim
  rw [integerOfLine_eq_ok_iff_readInt? htrim, Text.readInt?_of_isDigits h]

/-- **Lines and literals agree** on rows of digits, those that are too large among them. -/
theorem integerOfLine_eq_ok_iff_scan (h : Text.isDigits line.toList = true) :
    (∀ n, integerOfLine line = .ok (.int n) ↔
      scan line.toList = .ok [⟨.int n, ⟨0, utf8Len line.toList⟩⟩]) ∧
    ((∃ n, integerOfLine line = .ok (.int n)) ↔ ∃ ts, scan line.toList = .ok ts) := by
  simp only [integerOfLine_eq_ok_iff_readDigits? h, scan_eq_of_isDigits h]
  rcases Text.readDigits? line.toList with _ | n
  · simp
  · simp

/-! ## Programs -/

theorem eval_readInt_run {ι : Type} [LineSource ι] (scopes : Scopes) (span : Span)
    {input rest : ι} (h : LineSource.next input = (.line line, rest)) :
    (eval scopes (.readInt span)).run input = (integerOfLine line, rest) := by
  have hline : (readLine : Eval ι String).run input = (.ok line, rest) := by
    rw [readLine_run, h]
  rw [eval, run_bind, hline]
  rfl

/-- **Integers go out and come in.** One line is taken. It is read as an integer exactly if a
numeral for this integer is in it, with white space around: perhaps a sign, and then digits.
Otherwise what is in it is reported as a fault of the channel. So the text of an integer is read
back, with any white space around it. A row of digits is read exactly if it is a literal, and then
as the same integer. -/
theorem eval_readInt_numeral {ι : Type} [LineSource ι] (scopes : Scopes) (span : Span)
    {input rest : ι} {line : String} (h : LineSource.next input = (.line line, rest)) :
    ∃ r, (eval scopes (.readInt span)).run input = (r, rest) ∧
      (∀ n, r = .ok (.int n) ↔ ∃ core, Trimmed line.toList core ∧ Denotes core n.toInt) ∧
      ((∃ n, r = .ok (.int n)) ∨ ∃ core, Trimmed line.toList core ∧
        r = .error (.notInteger (String.ofList core)) ∧
        (Fault.notInteger (String.ofList core)).category = .channelError) ∧
      (∀ n before behind, line = before ++ (Value.int n).text ++ behind →
        (∀ c ∈ before.toList, isWhiteSpace c = true) →
        (∀ c ∈ behind.toList, isWhiteSpace c = true) → r = .ok (.int n)) ∧
      (line ≠ "" → (∀ c ∈ line.toList, c.isDigit = true) →
        (∀ n, r = .ok (.int n) ↔
          scan line.toList = .ok [⟨.int n, ⟨0, utf8Len line.toList⟩⟩]) ∧
        ((∃ n, r = .ok (.int n)) ↔ ∃ ts, scan line.toList = .ok ts)) := by
  refine ⟨integerOfLine line, eval_readInt_run scopes span h, fun n => integerOfLine_eq_ok_iff,
    ?_, ?_, ?_⟩
  · rcases integerOfLine_cases line with hok | ⟨core, htrim, herror⟩
    · exact Or.inl hok
    · exact Or.inr ⟨core, htrim, herror, rfl⟩
  · rintro n before behind rfl hbefore hbehind
    exact integerOfLine_text hbefore hbehind
  · intro hne hall
    have hdigits : Text.isDigits line.toList = true := by
      rw [Text.isDigits_iff, ne_eq, String.toList_eq_nil_iff]
      exact ⟨hne, hall⟩
    exact integerOfLine_eq_ok_iff_scan hdigits

/-- The least integer is read back. Its digits without the sign are not read, and no literal. -/
theorem eval_readInt_numeral_least :
    ∃ line digits : String, line = "\u3000-9223372036854775808\r" ∧ digits = "9223372036854775808" ∧
      LineSource.next [line, digits] = (.line line, [digits]) ∧
      (eval .empty (.readInt ⟨0, 9⟩)).run [line, digits] = (.ok (.int Int64.minValue), [digits]) ∧
      LineSource.next [digits] = (.line digits, []) ∧
      (∀ n, (eval .empty (.readInt ⟨0, 9⟩)).run [digits] ≠ (.ok (.int n), [])) ∧
      ∀ ts, scan digits.toList ≠ .ok ts := by
  have hline : LineSource.next ["\u3000-9223372036854775808\r", "9223372036854775808"] =
      (.line "\u3000-9223372036854775808\r", ["9223372036854775808"]) := rfl
  have hdigits : LineSource.next ["9223372036854775808"] = (.line "9223372036854775808", []) := rfl
  have hrow : Text.isDigits "9223372036854775808".toList = true := by decide
  have hscan : ∀ ts, scan "9223372036854775808".toList ≠ .ok ts := by
    intro ts hts
    rw [scan_eq_of_isDigits hrow] at hts
    cases hts
  obtain ⟨r, hrun, -, -, hback, -⟩ := eval_readInt_numeral .empty ⟨0, 9⟩ hline
  obtain ⟨r', hrun', -, -, -, hliteral⟩ := eval_readInt_numeral .empty ⟨0, 9⟩ hdigits
  obtain ⟨-, haccept⟩ := hliteral (by decide) (Text.isDigits_iff.mp hrow).2
  refine ⟨_, _, rfl, rfl, hline, ?_, hdigits, fun n hn => ?_, hscan⟩
  · have hbefore : ∀ c ∈ "\u3000".toList, isWhiteSpace c = true := List.all_eq_true.mp (by decide)
    have hbehind : ∀ c ∈ "\r".toList, isWhiteSpace c = true := List.all_eq_true.mp (by decide)
    rw [hrun, hback Int64.minValue _ _ (by decide) hbefore hbehind]
  · rw [hrun'] at hn
    obtain ⟨ts, hts⟩ := haccept.mp ⟨n, congrArg Prod.fst hn⟩
    exact hscan ts hts

end Scriptling

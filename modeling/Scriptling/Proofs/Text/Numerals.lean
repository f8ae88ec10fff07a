import Mathlib.Data.List.Induction
import Mathlib.Data.Nat.Digits.Defs
import Scriptling.Proofs.Text.Runs
import Scriptling.Text.Decimal

/-!
# Numerals

A numeral is a row of decimal digits, perhaps with a sign in front, and stands for a number
(`Text.Denotes`). What the digits come to is said by their places: the last one counts once, and
every other one ten times as much as the one behind it (`Text.placeValue`).

A numeral is read exactly if its number fits into a word, and as this word
(`Text.readInt?_eq_some_iff`). The text of a word is a numeral for it (`Text.denotes_decimal`). That
of the least word has digits that do not fit without the sign, and so the digits behind a minus
sign have a limit of their own.
-/

namespace Scriptling.Text

/-! ## Digits -/

/-- The number that digits stand for, by their places. -/
def placeValue (digits : List Char) : Nat :=
  Nat.ofDigits 10 (digits.reverse.map fun d => d.toNat - '0'.toNat)

theorem digitsValue_eq (digits : List Char) : digitsValue digits = placeValue digits := by
  rw [digitsValue, placeValue]
  induction digits using List.reverseRecOn with
  | nil => rfl
  | append_singleton digits d ih =>
    rw [Nat.ofDigitChars_append, ih, List.reverse_append, List.reverse_singleton,
      List.singleton_append, List.map_cons, Nat.ofDigits_cons, Nat.ofDigitChars_cons,
      Nat.ofDigitChars_nil, Nat.add_comm]

theorem isDigits_iff {cs : List Char} :
    isDigits cs = true ↔ cs ≠ [] ∧ ∀ d ∈ cs, d.isDigit = true := by
  simp [isDigits]

/-- The digits of a number. -/
theorem isDigits_repr (k : Nat) : isDigits k.repr.toList = true := by
  rw [isDigits_iff, Nat.toList_repr]
  exact ⟨Nat.toDigits_ne_nil, fun d hd => Nat.isDigit_of_mem_toDigits (by decide) (by decide) hd⟩

theorem digitsValue_repr (k : Nat) : digitsValue k.repr.toList = k := by
  rw [digitsValue, Nat.toList_repr, Nat.ofDigitChars_toDigits (by decide) (by decide)]

/-- Digits are read if the number that they stand for fits. -/
theorem readDigits?_eq_some_iff {cs : List Char} {n : Int64} :
    readDigits? cs = some n ↔ isDigits cs = true ∧ n.toInt = digitsValue cs := by
  rw [readDigits?]
  rcases hdigits : isDigits cs with _ | _
  · simp
  by_cases hfits : digitsValue cs < intLimit
  · have hword : (Int64.ofNat (digitsValue cs)).toInt = digitsValue cs :=
      Int64.toInt_ofNat_of_lt hfits
    rw [Bool.true_and, if_pos (decide_eq_true hfits), Option.some_inj, ← Int64.toInt_inj, hword]
    simp [eq_comm]
  · have hnone : n.toInt ≠ digitsValue cs := by
      intro hn
      have hlt := n.toInt_lt
      rw [hn] at hlt
      exact hfits (Int.ofNat_lt.mp hlt)
    simp [hfits, hnone]

/-- Digits behind a minus sign are read if the negative of their number fits. -/
theorem readNegative?_eq_some_iff {cs : List Char} {n : Int64} :
    readNegative? cs = some n ↔ isDigits cs = true ∧ n.toInt = -(digitsValue cs : Int) := by
  have hlimit : (intLimit : Int) = 2 ^ 63 := rfl
  rw [readNegative?]
  rcases hdigits : isDigits cs with _ | _
  · simp
  by_cases hfits : digitsValue cs ≤ intLimit
  · have hword : (Int64.ofInt (-(digitsValue cs : Int))).toInt = -(digitsValue cs : Int) :=
      Int64.toInt_ofInt_of_le (by omega) (by omega)
    rw [Bool.true_and, if_pos (decide_eq_true hfits), Option.some_inj, ← Int64.toInt_inj, hword]
    simp [eq_comm]
  · have hnone : n.toInt ≠ -(digitsValue cs : Int) := by
      intro hn
      have hle := n.le_toInt
      omega
    simp [hfits, hnone]

/-! ## Signs -/

theorem isDigits_minus (cs : List Char) : isDigits ('-' :: cs) = false := rfl

theorem isDigits_plus (cs : List Char) : isDigits ('+' :: cs) = false := rfl

/-- The text is a numeral for the number. -/
inductive Denotes : List Char → Int → Prop
  /-- without a sign -/
  | unsigned {digits : List Char} : digits ≠ [] → (∀ d ∈ digits, d.isDigit = true) →
      Denotes digits (placeValue digits)
  /-- with a plus sign -/
  | plus {digits : List Char} : digits ≠ [] → (∀ d ∈ digits, d.isDigit = true) →
      Denotes ('+' :: digits) (placeValue digits)
  /-- with a minus sign -/
  | minus {digits : List Char} : digits ≠ [] → (∀ d ∈ digits, d.isDigit = true) →
      Denotes ('-' :: digits) (-placeValue digits)

/-- In terms of what is read: digits, perhaps behind a sign. -/
theorem denotes_iff {cs : List Char} {i : Int} :
    Denotes cs i ↔ (isDigits cs = true ∧ i = digitsValue cs) ∨
      (∃ digits, cs = '+' :: digits ∧ isDigits digits = true ∧ i = digitsValue digits) ∨
      ∃ digits, cs = '-' :: digits ∧ isDigits digits = true ∧ i = -(digitsValue digits : Int) := by
  simp only [isDigits_iff, digitsValue_eq]
  constructor
  · intro h
    cases h with
    | unsigned hne hall => exact Or.inl ⟨⟨hne, hall⟩, rfl⟩
    | plus hne hall => exact Or.inr (Or.inl ⟨_, rfl, ⟨hne, hall⟩, rfl⟩)
    | minus hne hall => exact Or.inr (Or.inr ⟨_, rfl, ⟨hne, hall⟩, rfl⟩)
  · rintro (⟨⟨hne, hall⟩, rfl⟩ | ⟨digits, rfl, ⟨hne, hall⟩, rfl⟩ | ⟨digits, rfl, ⟨hne, hall⟩, rfl⟩)
    · exact .unsigned hne hall
    · exact .plus hne hall
    · exact .minus hne hall

/-- **A numeral is read** as the word that it stands for, if there is one. -/
theorem readInt?_eq_some_iff {cs : List Char} {n : Int64} :
    readInt? cs = some n ↔ Denotes cs n.toInt := by
  rw [denotes_iff]
  fun_cases readInt? cs with
  | case1 cs => simp [readNegative?_eq_some_iff, isDigits_minus]
  | case2 cs => simp [readDigits?_eq_some_iff, isDigits_plus]
  | case3 cs hnominus hnoplus =>
    rw [readDigits?_eq_some_iff, or_iff_left]
    rintro (⟨digits, hcs, -⟩ | ⟨digits, hcs, -⟩)
    · exact hnoplus digits hcs
    · exact hnominus digits hcs

/-- Digits are read as they are without a sign. -/
theorem readInt?_of_isDigits {cs : List Char} (h : isDigits cs = true) :
    readInt? cs = readDigits? cs := by
  fun_cases readInt? cs with
  | case1 cs =>
    rw [isDigits_minus] at h
    cases h
  | case2 cs =>
    rw [isDigits_plus] at h
    cases h
  | case3 => rfl

/-- **The text of a word** is a numeral for it. -/
theorem denotes_decimal (n : Int64) : Denotes (decimal n).toList n.toInt := by
  rw [denotes_iff, decimal]
  split_ifs with hneg
  · have hsign : ("-" ++ n.toInt.natAbs.repr).toList = '-' :: n.toInt.natAbs.repr.toList :=
      String.toList_append ..
    refine Or.inr (Or.inr ⟨_, hsign, isDigits_repr n.toInt.natAbs, ?_⟩)
    rw [digitsValue_repr]
    omega
  · refine Or.inl ⟨isDigits_repr n.toInt.natAbs, ?_⟩
    rw [digitsValue_repr]
    omega

/-! ## Padding -/

theorem isWhiteSpace_of_isDigit {c : Char} (h : c.isDigit = true) : isWhiteSpace c = false := by
  have hc : 48 ≤ c.toNat ∧ c.toNat ≤ 57 := by simpa [Char.isDigit, UInt32.le_iff_toNat_le] using h
  simp only [isWhiteSpace, whiteSpace, inRanges, ← Bool.not_eq_true, Bool.and_eq_true,
    Bool.or_eq_true, Nat.ble_eq]
  omega

/-- There is no white space in a numeral. -/
theorem Denotes.isWhiteSpace_eq_false {cs : List Char} {i : Int} (h : Denotes cs i) :
    ∀ c ∈ cs, isWhiteSpace c = false := by
  cases h with
  | unsigned _ hall => exact fun c hc => isWhiteSpace_of_isDigit (hall c hc)
  | plus _ hall | minus _ hall =>
    exact List.forall_mem_cons.mpr ⟨by decide, fun c hc => isWhiteSpace_of_isDigit (hall c hc)⟩

/-- Around a numeral white space is taken off, and nothing else is. -/
theorem Denotes.trimmed {cs before behind : List Char} {i : Int} (h : Denotes cs i)
    (hbefore : ∀ c ∈ before, isWhiteSpace c = true)
    (hbehind : ∀ c ∈ behind, isWhiteSpace c = true) : Trimmed (before ++ cs ++ behind) cs :=
  ⟨before, behind, rfl, hbefore, hbehind,
    fun c hc => h.isWhiteSpace_eq_false c (List.mem_of_mem_head? hc),
    fun c hc => h.isWhiteSpace_eq_false c (List.mem_of_getLast? hc)⟩

end Scriptling.Text

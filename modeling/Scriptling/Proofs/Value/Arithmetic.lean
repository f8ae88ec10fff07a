import Mathlib.Data.Int.ModEq
import Mathlib.Data.Rat.Floor
import Scriptling.Interpreter.Eval

/-!
# Arithmetic in words

Words stand for the integers from `-2 ^ 63` to below `2 ^ 63`, and every integer is congruent to
exactly one of them modulo `2 ^ 64`: it *wraps around* to this word (`WrapsTo`). Sums, differences
and products of words are the words that the exact results wrap around to.

Quotients are truncated toward zero. There is one that is no word, that of the least word and `-1`.
It wraps around, and still the quotient times the divisor, with the remainder added, is the
dividend: computed in words this is an equation of words (`div_mul_add_mod`), and which words the
numbers on the way wrap around to does not matter to it.

Main statement: arithmetic is that of two's complement (`ArithOp.compute_twosComplement`).
-/

namespace Scriptling

/-! ## Numbers and words -/

/-- The word is the only one that is congruent to the number. -/
def WrapsTo (i : Int) (n : Int64) : Prop :=
  ∀ m : Int64, m.toInt ≡ i [ZMOD 2 ^ 64] ↔ m = n

/-- **Every number wraps around** to a word. -/
theorem wrapsTo_ofInt (i : Int) : WrapsTo i (.ofInt i) := by
  have hsize : Int64.size = 2 ^ 64 := rfl
  intro m
  constructor
  · intro h
    have hbmod : m.toInt.bmod (2 ^ 64) = i.bmod (2 ^ 64) := by
      rw [← Int.emod_bmod m.toInt, ← Int.emod_bmod i]
      exact congrArg (Int.bmod · (2 ^ 64)) h
    rw [← Int64.toInt_inj, Int64.toInt_ofInt, hsize, ← hbmod]
    exact m.toInt_bmod.symm
  · rintro rfl
    rw [Int64.toInt_ofInt, hsize]
    exact Int.bmod_emod

theorem wrapsTo_add (a b : Int64) : WrapsTo (a.toInt + b.toInt) (a + b) := by
  have h := wrapsTo_ofInt (a.toInt + b.toInt)
  rwa [Int64.ofInt_add, Int64.ofInt_toInt, Int64.ofInt_toInt] at h

theorem wrapsTo_sub (a b : Int64) : WrapsTo (a.toInt - b.toInt) (a - b) := by
  have h := wrapsTo_ofInt (a.toInt - b.toInt)
  rwa [Int64.ofInt_sub, Int64.ofInt_toInt, Int64.ofInt_toInt] at h

theorem wrapsTo_mul (a b : Int64) : WrapsTo (a.toInt * b.toInt) (a * b) := by
  have h := wrapsTo_ofInt (a.toInt * b.toInt)
  rwa [Int64.ofInt_mul, Int64.ofInt_toInt, Int64.ofInt_toInt] at h

/-! ## Truncation -/

/-- A number without its fractional part. -/
def towardZero (x : ℚ) : Int :=
  if 0 ≤ x then ⌊x⌋ else ⌈x⌉

theorem towardZero_neg (x : ℚ) : towardZero (-x) = -towardZero x := by
  rcases lt_trichotomy x 0 with hx | rfl | hx
  · have hneg : 0 ≤ -x := by linarith
    rw [towardZero, towardZero, if_pos hneg, if_neg (not_le.mpr hx), Int.floor_neg]
  · simp [towardZero]
  · have hneg : ¬ 0 ≤ -x := by linarith
    rw [towardZero, towardZero, if_neg hneg, if_pos hx.le, Int.ceil_neg]

/-- **Division truncates** the exact quotient. Both sides change their sign with the dividend and
with the divisor, so this has to be seen for natural numbers only. -/
theorem tdiv_eq_towardZero (i j : Int) : i.tdiv j = towardZero (i / j : ℚ) := by
  have hnat (m n : ℕ) : (m : Int).tdiv n = towardZero (m / n : ℚ) := by
    have hnonneg : (0 : ℚ) ≤ m / n := by positivity
    rw [towardZero, if_pos hnonneg, Rat.floor_natCast_div_natCast, Int.natCast_tdiv_eq_ediv]
  obtain ⟨m, rfl | rfl⟩ := i.eq_nat_or_neg <;> obtain ⟨n, rfl | rfl⟩ := j.eq_nat_or_neg <;>
    simp [neg_div, div_neg, towardZero_neg, ← hnat]

/-! ## Quotients and remainders -/

section

variable {a b : Int64}

/-- The only quotient that is no word is that of the least word and `-1`. -/
theorem toInt_div (h : ¬ (a = Int64.minValue ∧ b = -1)) :
    (a / b).toInt = towardZero (a.toInt / b.toInt : ℚ) := by
  rw [← tdiv_eq_towardZero]
  by_cases ha : a = Int64.minValue
  · have hb : b ≠ -1 := fun hb => h ⟨ha, hb⟩
    exact Int64.toInt_div_of_ne_right a b hb
  · exact Int64.toInt_div_of_ne_left a b ha

theorem natAbs_mod_lt (hb : b ≠ 0) : (a % b).toInt.natAbs < b.toInt.natAbs := by
  have hb' : b.toInt ≠ 0 := by rwa [ne_eq, ← Int64.toInt_zero, Int64.toInt_inj]
  rw [Int64.toInt_mod, Int.natAbs_tmod]
  exact Nat.mod_lt _ (Int.natAbs_pos.mpr hb')

/-- A remainder has the sign of the dividend. -/
theorem sign_mod (a b : Int64) : a % b = 0 ∨ (a % b).toInt.sign = a.toInt.sign := by
  have hsign := Int.sign_tmod a.toInt b.toInt
  rw [← Int64.toInt_mod] at hsign
  split_ifs at hsign
  · left
    rw [← Int64.toInt_inj, Int64.toInt_zero]
    exact Int.sign_eq_zero_iff_zero.mp hsign
  · right
    exact hsign

/-- **The dividend is put together** from the quotient and the remainder, also where the quotient
wraps around. -/
theorem div_mul_add_mod (a b : Int64) : a / b * b + a % b = a := by
  have hsize : Int64.size = 2 ^ 64 := rfl
  have hdiv : a / b = .ofInt (a.toInt.tdiv b.toInt) := by
    rw [← Int64.toInt_inj, Int64.toInt_div, Int64.toInt_ofInt, hsize]
  have hmod : a % b = .ofInt (a.toInt.tmod b.toInt) := by
    rw [← Int64.toInt_mod, Int64.ofInt_toInt]
  calc a / b * b + a % b
      = .ofInt (a.toInt.tdiv b.toInt) * .ofInt b.toInt + .ofInt (a.toInt.tmod b.toInt) := by
        rw [hdiv, hmod, Int64.ofInt_toInt]
    _ = .ofInt (a.toInt.tdiv b.toInt * b.toInt + a.toInt.tmod b.toInt) := by
        rw [Int64.ofInt_add, Int64.ofInt_mul]
    _ = a := by rw [Int.tdiv_mul_add_tmod, Int64.ofInt_toInt]

/-! ## Operators -/

namespace ArithOp

theorem compute_div (hb : b ≠ 0) : div.compute a b = .ok (a / b) := by
  rw [compute, result?, if_neg hb]

theorem compute_mod (hb : b ≠ 0) : mod.compute a b = .ok (a % b) := by
  rw [compute, result?, if_neg hb]

/-- Only a division by zero has no result. -/
theorem compute_eq_error_iff (op : ArithOp) :
    op.compute a b = .error .divisionByZero ↔ (op = div ∨ op = mod) ∧ b = 0 := by
  by_cases hb : b = 0 <;> cases op <;> simp [compute, result?, hb]

end ArithOp

end

/-- **Arithmetic is that of two's complement.** A sum, a difference and a product is the only word
that is congruent to the exact result. A quotient and a remainder there is unless the divisor is
zero. The remainder is nearer to zero than the divisor and has the sign of the dividend; the
quotient is the exact one without its fractional part, or, for the least word and `-1`, the least
word. In any case the dividend is put together from them, in words. The negative of a word is its
difference from zero, and its own negative is the word, the least one included. -/
theorem ArithOp.compute_twosComplement (a b : Int64) :
    ((∃ n, add.compute a b = .ok n ∧ WrapsTo (a.toInt + b.toInt) n) ∧
      (∃ n, sub.compute a b = .ok n ∧ WrapsTo (a.toInt - b.toInt) n) ∧
      ∃ n, mul.compute a b = .ok n ∧ WrapsTo (a.toInt * b.toInt) n) ∧
    (div.compute a b = .error .divisionByZero ↔ b = 0) ∧
    (mod.compute a b = .error .divisionByZero ↔ b = 0) ∧
    (b ≠ 0 → ∃ q r, div.compute a b = .ok q ∧ mod.compute a b = .ok r ∧
      r.toInt.natAbs < b.toInt.natAbs ∧ (r = 0 ∨ r.toInt.sign = a.toInt.sign) ∧
      (if a = Int64.minValue ∧ b = -1 then q = Int64.minValue ∧ r = 0
        else q.toInt = towardZero (a.toInt / b.toInt : ℚ)) ∧
      (do add.compute (← mul.compute q b) r) = .ok a) ∧
    UnaryOp.neg.onValue (.int a) = (sub.compute 0 a).map Value.int ∧
    (UnaryOp.neg.onValue (.int a) >>= UnaryOp.neg.onValue) = .ok (.int a) := by
  refine ⟨⟨?_, ?_, ?_⟩, ?_, ?_, fun hb => ?_, ?_, ?_⟩
  · exact ⟨a + b, rfl, wrapsTo_add a b⟩
  · exact ⟨a - b, rfl, wrapsTo_sub a b⟩
  · exact ⟨a * b, rfl, wrapsTo_mul a b⟩
  · simp [compute_eq_error_iff]
  · simp [compute_eq_error_iff]
  · refine ⟨a / b, a % b, compute_div hb, compute_mod hb, natAbs_mod_lt hb, sign_mod a b, ?_, ?_⟩
    · split_ifs with hleast
      · obtain ⟨rfl, rfl⟩ := hleast
        decide
      · exact toInt_div hleast
    · exact congrArg Except.ok (div_mul_add_mod a b)
  · have hneg : UnaryOp.neg.onValue (.int a) = .ok (.int (-a)) := rfl
    rw [hneg, ← Int64.zero_sub]
    rfl
  · have hneg : UnaryOp.neg.onValue (.int a) >>= UnaryOp.neg.onValue = .ok (.int (- -a)) := rfl
    rw [hneg, Int64.neg_neg]

/-- The quotient that is no word, and a remainder of a negative dividend. -/
theorem ArithOp.compute_twosComplement_minValue :
    ∃ a : Int64, a = Int64.minValue ∧
      (∃ q r, div.compute a (-1) = .ok q ∧ mod.compute a (-1) = .ok r ∧
        q = Int64.minValue ∧ r = 0 ∧ (do add.compute (← mul.compute q (-1)) r) = .ok a) ∧
      ∃ q r, div.compute a 3 = .ok q ∧ mod.compute a 3 = .ok r ∧
        q.toInt = towardZero (a.toInt / Int64.toInt 3 : ℚ) ∧ (r = 0 ∨ r.toInt.sign = a.toInt.sign) ∧
        r.toInt.natAbs < 3 := by
  refine ⟨Int64.minValue, rfl, ?_, ?_⟩
  · obtain ⟨-, -, -, hdivision, -⟩ := compute_twosComplement Int64.minValue (-1)
    obtain ⟨q, r, hq, hr, -, -, hquotient, hsum⟩ := hdivision (by decide)
    rw [if_pos (by decide)] at hquotient
    exact ⟨q, r, hq, hr, hquotient.1, hquotient.2, hsum⟩
  · obtain ⟨-, -, -, hdivision, -⟩ := compute_twosComplement Int64.minValue 3
    obtain ⟨q, r, hq, hr, hlt, hsign, hquotient, -⟩ := hdivision (by decide)
    rw [if_neg (by decide)] at hquotient
    exact ⟨q, r, hq, hr, hquotient, hsign, hlt⟩

end Scriptling

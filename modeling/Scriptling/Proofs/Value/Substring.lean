import Mathlib.Data.List.Basic
import Mathlib.Data.String.Basic
import Scriptling.Value.Strings

/-!
# Substrings

What a substring is cut out of the characters of a string is said twice here: by the places, one by
one (`charsAt`), and as what is left when some characters are passed over and some are taken
(`charsAt_eq_take_drop`). The code does the second, with numbers that it computes in words, and the
laws of substrings follow from those of `take` and `drop`.

Main statement: substrings are exact, and no number that is computed for them leaves its range
(`substring_exact`).
-/

namespace Scriptling.Strings

/-- The characters at the places `j`, counted from 1, with `start ≤ j` and `j - start < len`. -/
def charsAt (cs : List Char) (start len : Int) : List Char :=
  ((cs.zipIdx 1).filter fun (_, j) => start ≤ j ∧ j - start < len).map Prod.fst

/-- The same with places counted from `k`: the places below `start` are passed over, and those that
`len` has left from `k` on are taken. -/
theorem map_fst_filter_zipIdx (cs : List Char) (k : Nat) (start len : Int) :
    ((cs.zipIdx k).filter fun (_, j) => start ≤ j ∧ j - start < len).map Prod.fst =
      (cs.drop (start - k).toNat).take (start + len - max start k).toNat := by
  induction cs generalizing k with
  | nil => simp
  | cons c cs ih =>
    rw [List.zipIdx_cons, List.filter_cons]
    obtain hk | hk := lt_or_ge (k : Int) start
    · -- the place is in front
      have hdrop : (start - k).toNat = (start - (k + 1 : Nat)).toNat + 1 := by omega
      have htake : max start (k : Int) = max start ((k + 1 : Nat) : Int) := by omega
      have hout : ¬ (start ≤ k ∧ (k : Int) - start < len) := by omega
      rw [if_neg (by simpa using hout), ih, hdrop, List.drop_succ_cons, htake]
    · have hdrop : (start - k).toNat = 0 := by omega
      have hdrop' : (start - (k + 1 : Nat)).toNat = 0 := by omega
      rw [hdrop, List.drop_zero]
      by_cases hlen : (k : Int) - start < len
      · have htake : (start + len - max start k).toNat =
            (start + len - max start (k + 1 : Nat)).toNat + 1 := by omega
        rw [if_pos (by simpa using ⟨hk, hlen⟩), List.map_cons, ih, hdrop', List.drop_zero, htake,
          List.take_succ_cons]
      · -- the place is behind, and so are all others
        have htake : (start + len - max start k).toNat = 0 := by omega
        have htake' : (start + len - max start (k + 1 : Nat)).toNat = 0 := by omega
        have hout : ¬ (start ≤ k ∧ (k : Int) - start < len) := by omega
        rw [if_neg (by simpa using hout), ih, htake, htake', List.take_zero, List.take_zero]

theorem charsAt_eq_take_drop {start : Int} (cs : List Char) (len : Int) (h : 1 ≤ start) :
    charsAt cs start len = (cs.drop (start - 1).toNat).take len.toNat := by
  have htake : (start + len - max start (1 : Nat)).toNat = len.toNat := by omega
  rw [charsAt, map_fst_filter_zipIdx, htake]
  rfl

/-! ## Cutting -/

/-- There is at least one byte for each character. So if there is only one for each in the whole text,
there is only one for each in any part of it. -/
theorem length_le_utf8Len (cs : List Char) : cs.length ≤ String.utf8Len cs := by
  induction cs with
  | nil => exact Nat.le_refl _
  | cons c cs ih =>
    have hc : 0 < c.utf8Size := c.utf8Size_pos
    rw [List.length_cons, String.utf8Len_cons]
    omega

/-- A text in three, with so many characters in front and in the middle. -/
theorem exists_append_append {cs : List Char} {k n : Nat} (h : k + n ≤ cs.length) :
    ∃ front middle back, cs = front ++ middle ++ back ∧ front.length = k ∧ middle.length = n := by
  refine ⟨cs.take k, (cs.drop k).take n, (cs.drop k).drop n, ?_, ?_, ?_⟩
  · rw [List.append_assoc, List.take_append_drop, List.take_append_drop]
  · rw [List.length_take]
    omega
  · rw [List.length_take, List.length_drop]
    omega

/-- **Cutting by bytes and cutting by characters are the same** where the characters are there. -/
theorem toList_slice {s : String} {k n : Nat} (h : k + n ≤ s.length) :
    (slice s k n).toList = (s.toList.drop k).take n := by
  rw [slice]
  split_ifs with hbytes
  · rw [← String.length_toList] at h
    obtain ⟨front, middle, back, hs, rfl, rfl⟩ := exists_append_append h
    obtain rfl : s = .ofList (front ++ middle ++ back) := by rw [← hs, String.ofList_toList]
    simp only [String.utf8ByteSize_ofList, String.length_ofList, String.utf8Len_append,
      List.length_append] at hbytes
    have hback := length_le_utf8Len back
    have hfront : String.utf8Len front = front.length := by
      have hle := length_le_utf8Len front
      have hmiddle := length_le_utf8Len middle
      omega
    have hmiddle : String.utf8Len middle = middle.length := by
      have hle := length_le_utf8Len middle
      omega
    have hextract := String.extract_of_valid front middle back
    rw [hfront, hmiddle] at hextract
    rw [hextract, hs, String.toList_ofList, List.append_assoc, List.drop_left, List.take_left]
  · rw [String.Slice.toList_copy_take, String.toList_copy_drop]

/-! ## Computing in words -/

/-- What is computed in words is exact if the result fits, whether or not it wraps around on the
way. -/
theorem toInt_of_eq_ofInt {w : Int64} {i : Int} (h : w = .ofInt i)
    (hmin : Int64.minValue.toInt ≤ i) (hmax : i ≤ Int64.maxValue.toInt) : w.toInt = i := by
  rw [Int64.toInt_minValue] at hmin
  rw [Int64.toInt_maxValue] at hmax
  rw [h]
  exact Int64.toInt_ofInt_of_le hmin (Int.lt_of_le_sub_one hmax)

theorem word?_eq {i : Int} (hmin : Int64.minValue.toInt ≤ i)
    (hmax : i ≤ Int64.maxValue.toInt) : ∃ w, word? i = some w ∧ w.toInt = i :=
  ⟨.ofInt i, if_pos ⟨hmin, hmax⟩, toInt_of_eq_ofInt rfl hmin hmax⟩

theorem count?_eq {n : Int64} (h : 0 ≤ n.toInt) : count? n = some n.toInt.toNat :=
  if_pos h

theorem toInt_min (a b : Int64) : (min a b).toInt = min a.toInt b.toInt := by
  have hmin : min a b = if a ≤ b then a else b := rfl
  simp only [hmin, min_def, Int64.le_iff_toInt_le]
  split_ifs <;> rfl

/-- A number that is not too small is clamped to the greatest word. -/
theorem toInt_ofIntClamp {i : Int} (h : Int64.minValue.toInt ≤ i) :
    (Int64.ofIntClamp i).toInt = min i Int64.maxValue.toInt := by
  rw [Int64.ofIntClamp, dif_pos h]
  split_ifs with hmax
  · rw [Int64.toInt_ofIntLE, min_eq_left hmax]
  · rw [min_eq_right (by omega)]

/-- **The window** from a place of the string: nothing on the way to it goes wrong. -/
theorem window?_eq {total start len : Int64} (hstart : 1 ≤ start.toInt)
    (htotal : start.toInt ≤ total.toInt) (hlen : 0 < len.toInt) :
    window? total start len = some ((start.toInt - 1).toNat,
      (min len.toInt (total.toInt - start.toInt + 1)).toNat) := by
  have hmin := Int64.toInt_minValue
  have hlen' := Int64.toInt_le len
  have htotal' := Int64.toInt_le total
  obtain ⟨more, hmore, hmore'⟩ := @word?_eq (len.toInt - 1) (by omega) (by omega)
  obtain ⟨stop, hstop⟩ : ∃ stop, stop = min (Int64.ofIntClamp (start.toInt + more.toInt)) total :=
    ⟨_, rfl⟩
  -- the greatest word is no place behind the string's last one
  have hstop' : stop.toInt = min (start.toInt + len.toInt - 1) total.toInt := by
    rw [hstop, toInt_min, toInt_ofIntClamp (by omega)]
    omega
  obtain ⟨skipped, hskipped, hskipped'⟩ := @word?_eq (start.toInt - 1) (by omega) (by omega)
  obtain ⟨behind, hbehind, hbehind'⟩ := @word?_eq (stop.toInt - start.toInt) (by omega) (by omega)
  obtain ⟨taken, htaken, htaken'⟩ := @word?_eq (behind.toInt + 1) (by omega) (by omega)
  have hpassed : count? skipped = some (start.toInt - 1).toNat := by
    rw [count?_eq (by omega), hskipped']
  have htook : count? taken = some (min len.toInt (total.toInt - start.toInt + 1)).toNat := by
    rw [count?_eq (by omega), htaken', hbehind', hstop']
    congr 2
    omega
  simp only [window?, hmore, ← hstop, hskipped, hbehind, htaken, hpassed, htook,
    Option.bind_eq_bind, Option.bind_some]
  rfl

/-! ## Substrings -/

section

variable {s : String}

theorem toInt_length (hs : s.length < 2 ^ 63) : (length s).toInt = s.length :=
  Int64.toInt_ofNat_of_lt hs

/-- The test for what gives an empty substring, in integers. -/
theorem no_window_iff (hs : s.length < 2 ^ 63) (start len : Int64) :
    start < 1 ∨ length s < start ∨ len ≤ 0 ↔
      ¬ (1 ≤ start.toInt ∧ start.toInt ≤ s.length ∧ 0 < len.toInt) := by
  rw [Int64.lt_iff_toInt_lt, Int64.lt_iff_toInt_lt, Int64.le_iff_toInt_le, toInt_length hs,
    Int64.toInt_one, Int64.toInt_zero]
  omega

theorem substring?_eq_empty (hs : s.length < 2 ^ 63) {start len : Int64}
    (h : ¬ (1 ≤ start.toInt ∧ start.toInt ≤ s.length ∧ 0 < len.toInt)) :
    substring? s start len = some "" :=
  if_pos ((no_window_iff hs start len).mpr h)

/-- **A substring has a result**, the characters from a place on. This is said for every place,
since behind the last one there is nothing to take. -/
theorem substring?_eq_ofList (hs : s.length < 2 ^ 63) {start : Int64}
    (hstart : 1 ≤ start.toInt) (len : Int64) : substring? s start len =
      some (.ofList ((s.toList.drop (start.toInt - 1).toNat).take len.toInt.toNat)) := by
  by_cases h : 1 ≤ start.toInt ∧ start.toInt ≤ s.length ∧ 0 < len.toInt
  · have hplace : ¬ (start < 1 ∨ length s < start ∨ len ≤ 0) := by
      rwa [no_window_iff hs, not_not]
    have htotal := toInt_length hs
    obtain ⟨k, hk⟩ : ∃ k, k = (start.toInt - 1).toNat := ⟨_, rfl⟩
    obtain ⟨n, hn⟩ : ∃ n, n = (min len.toInt ((length s).toInt - start.toInt + 1)).toNat := ⟨_, rfl⟩
    have hwindow : window? (length s) start len = some (k, n) := by
      rw [window?_eq hstart (by omega) h.2.2, hk, hn]
    have htake : (s.toList.drop k).take n = (s.toList.drop k).take len.toInt.toNat := by
      rw [List.take_eq_take_iff, List.length_drop, String.length_toList]
      omega
    have hslice : slice s k n = .ofList ((s.toList.drop k).take len.toInt.toNat) := by
      rw [← htake, ← toList_slice (by omega), String.ofList_toList]
    rw [substring?, if_neg hplace, hwindow, ← hk, ← hslice]
    rfl
  · have hnil : (s.toList.drop (start.toInt - 1).toNat).take len.toInt.toNat = [] := by
      rw [← List.length_eq_zero_iff, List.length_take, List.length_drop, String.length_toList]
      omega
    rw [substring?_eq_empty hs h, hnil, String.ofList_nil]

theorem substring_eq_empty (hs : s.length < 2 ^ 63) {start len : Int64}
    (h : ¬ (1 ≤ start.toInt ∧ start.toInt ≤ s.length ∧ 0 < len.toInt)) :
    substring s start len = "" := by
  rw [substring, substring?_eq_empty hs h, Option.getD_some]

/-- The characters of a substring. -/
theorem toList_substring (hs : s.length < 2 ^ 63) {start : Int64}
    (hstart : 1 ≤ start.toInt) (len : Int64) : (substring s start len).toList =
      (s.toList.drop (start.toInt - 1).toNat).take len.toInt.toNat := by
  rw [substring, substring?_eq_ofList hs hstart, Option.getD_some, String.toList_ofList]

/-- No number that is computed on the way to a substring is out of range. -/
theorem substring?_eq (hs : s.length < 2 ^ 63) (start len : Int64) :
    substring? s start len = some (substring s start len) := by
  by_cases hstart : 1 ≤ start.toInt
  · rw [substring, substring?_eq_ofList hs hstart, Option.getD_some]
  · rw [substring, substring?_eq_empty hs (fun h => hstart h.1), Option.getD_some]

theorem length_substring_le (hs : s.length < 2 ^ 63) (start len : Int64) :
    (substring s start len).length ≤ s.length := by
  by_cases hstart : 1 ≤ start.toInt
  · rw [← String.length_toList, toList_substring hs hstart, List.length_take, List.length_drop,
      String.length_toList]
    omega
  · rw [substring_eq_empty hs (fun h => hstart h.1)]
    exact Nat.zero_le _

/-- **Splitting** behind any number of characters, none and all of them included. -/
theorem substring_append_substring (hs : s.length < 2 ^ 63) {k : Int64}
    (hk : 0 ≤ k.toInt) (hk' : k.toInt ≤ s.length) :
    substring s 1 k ++ substring s (k + 1) (length s - k) = s := by
  have hmin := Int64.toInt_minValue
  have hmax := Int64.toInt_maxValue
  have htotal := toInt_length hs
  have hrest : (length s - k).toInt = (length s).toInt - k.toInt :=
    toInt_of_eq_ofInt (by simp) (by omega) (by omega)
  have hfront : (substring s 1 k).toList = s.toList.take k.toInt.toNat :=
    toList_substring hs (by decide) k
  have hback : (substring s (k + 1) (length s - k)).toList = s.toList.drop k.toInt.toNat := by
    obtain hlt | hge := lt_or_ge k.toInt s.length
    · have hplace : (k + 1).toInt = k.toInt + 1 :=
        toInt_of_eq_ofInt (by simp) (by omega) (by omega)
      rw [toList_substring hs (by omega), hplace, hrest, Int.add_sub_cancel]
      apply List.take_of_length_le
      rw [List.length_drop, String.length_toList]
      omega
    · -- there may be no word behind `k`, but nothing is taken
      have hnone : length s - k = 0 := by
        rw [← Int64.toInt_inj, hrest, Int64.toInt_zero]
        omega
      rw [hnone, substring_eq_empty hs (by simp), String.toList_empty, eq_comm]
      apply List.drop_of_length_le
      rw [String.length_toList]
      omega
  rw [← String.toList_inj, String.toList_append, hfront, hback, List.take_append_drop]

/-- **Composition**: a substring of a substring is one of the string. -/
theorem substring_substring (hs : s.length < 2 ^ 63) {i n j m : Int64}
    (hi : 1 ≤ i.toInt) (hj : 1 ≤ j.toInt) (hjn : j.toInt ≤ n.toInt)
    (hij : i.toInt + j.toInt - 1 ≤ Int64.maxValue.toInt) :
    substring (substring s i n) j m = substring s (i + j - 1) (min m (n - j + 1)) := by
  have hmin := Int64.toInt_minValue
  have hn := Int64.toInt_le n
  have hplace : (i + j - 1).toInt = i.toInt + j.toInt - 1 :=
    toInt_of_eq_ofInt (by simp) (by omega) (by omega)
  have hcount : (n - j + 1).toInt = n.toInt - j.toInt + 1 :=
    toInt_of_eq_ofInt (by simp) (by omega) (by omega)
  have hinner := (length_substring_le hs i n).trans_lt hs
  rw [← String.toList_inj, toList_substring hinner hj, toList_substring hs hi,
    toList_substring hs (by omega), toInt_min, hplace, hcount, List.drop_take, List.drop_drop,
    List.take_take]
  congr 1
  · omega
  · congr 1
    omega

end

/-- **Substrings are exact.** A string has as many characters as its length says, and for all words
`start` and `len`, no number that is computed on the way to a substring leaves its range. If `start`
is a place of the string and `len` is positive, the substring has the characters at the places `j`
with `start ≤ j` and `j - start < len`, and so as many of the `len` as there are; otherwise it is empty.
A string is put together from what is up to a place and what is behind it, and a substring of a
substring is one of the string. -/
theorem substring_exact (s : String) (hs : s.length < 2 ^ 63) :
    (length s).toInt = s.length ∧
      (∀ start len : Int64, substring? s start len = some (substring s start len) ∧
        if 1 ≤ start ∧ start ≤ length s ∧ 0 < len then
          (substring s start len).toList = charsAt s.toList start.toInt len.toInt ∧
            (length (substring s start len)).toInt = min len.toInt (s.length - start.toInt + 1)
        else substring s start len = "") ∧
      (∀ k : Int64, 0 ≤ k → k ≤ length s →
        substring s 1 k ++ substring s (k + 1) (length s - k) = s) ∧
      ∀ i n j m : Int64, 1 ≤ i → i ≤ length s → 1 ≤ j → j ≤ n →
        i.toInt + j.toInt - 1 ≤ Int64.maxValue.toInt →
          substring (substring s i n) j m = substring s (i + j - 1) (min m (n - j + 1)) := by
  simp only [Int64.le_iff_toInt_le, Int64.lt_iff_toInt_lt, Int64.toInt_zero, Int64.toInt_one,
    toInt_length hs]
  refine ⟨trivial, fun start len => ⟨?_, ?_⟩, fun k hk hk' => ?_, fun i n j m hi _ hj hjn hij => ?_⟩
  · exact substring?_eq hs start len
  · split_ifs with h
    · have hchars := toList_substring hs h.1 len
      refine ⟨by rw [hchars, charsAt_eq_take_drop _ _ h.1], ?_⟩
      rw [toInt_length ((length_substring_le hs start len).trans_lt hs), ← String.length_toList,
        hchars, List.length_take, List.length_drop, String.length_toList]
      omega
    · exact substring_eq_empty hs h
  · exact substring_append_substring hs hk hk'
  · exact substring_substring hs hi hj hjn hij

/-- A substring that is cut short at the end of a string whose characters differ in their bytes. -/
theorem substring_exact_clamped : ∃ s : String, s = "héllo" ∧ s.length < 2 ^ 63 ∧
    (substring s 2 Int64.maxValue).toList = charsAt s.toList 2 Int64.maxValue.toInt ∧
      (length (substring s 2 Int64.maxValue)).toInt = 4 ∧
      substring s 1 2 ++ substring s 3 3 = s ∧
      substring (substring s 2 4) 3 9 = substring s 4 2 := by
  have hs : "héllo".length < 2 ^ 63 := by decide
  obtain ⟨-, hchars, hsplit, hcompose⟩ := substring_exact "héllo" hs
  have hmax := (hchars 2 Int64.maxValue).2
  rw [if_pos (by decide)] at hmax
  refine ⟨_, rfl, hs, hmax.1, hmax.2, ?_, ?_⟩
  · exact hsplit 2 (by decide) (by decide)
  · exact hcompose 2 4 3 9 (by decide) (by decide) (by decide) (by decide) (by decide)

end Scriptling.Strings

import Scriptling.Proofs.Value.Substring

/-!
# Positions

A text is searched for by its bytes, and the byte where it is found is turned into a place by counting
the characters in front of it. Both a byte where a text is found and the characters in front of it cut
the string in two there (`String.Pos.Splits`), so the first one by bytes is the first one by characters
(`find?_eq_some`).

Main statement: the position of a text is the least place where it occurs (`position_least`).
-/

namespace Scriptling.Strings

/-- The characters of `s` from place `q` on, counted from 1, begin with those of `sub`. -/
def OccursAt (s sub : String) (q : Int) : Prop :=
  sub.toList <+: s.toList.drop (q - 1).toNat

section

open String.Slice.Pattern.Model

/-- The empty text is found at once. -/
theorem find?_empty (s : String) : s.find? "" = some s.startPos := by
  have hslice : s.toSlice.find? "" = some s.toSlice.startPos := by
    rw [String.Slice.find?, ← Std.Iter.findSome?_toList, ForwardStringSearcher.toSearcher_empty,
      ForwardSliceSearcher.toList_emptyBefore_eq]
    split_ifs <;> rfl
  rw [String.find?_eq_find?_toSlice, hslice]
  rfl

/-- **The first match** by bytes is the first one by characters. -/
theorem find?_eq_some {s sub : String} {p : s.Pos} (h : s.find? sub = some p) :
    ∃ before behind, s = before ++ sub ++ behind ∧ (s.sliceTo p).copy = before ∧
      ∀ k < before.length, ¬ sub.toList <+: s.toList.drop k := by
  obtain rfl | hsub := eq_or_ne sub ""
  · rw [find?_empty, Option.some_inj] at h
    subst h
    exact ⟨"", s, by simp, by simp, by simp⟩
  · have := ForwardStringSearcher.strictPatternModel hsub
    have := ForwardStringSearcher.lawfulToForwardSearcherModel hsub
    rw [String.find?_eq_find?_toSlice, Option.map_eq_some_iff] at h
    obtain ⟨p, h, rfl⟩ := h
    obtain ⟨hmatch, hfirst⟩ := (find?_eq_some_iff sub).mp h
    obtain ⟨before, behind, hsplits⟩ := ForwardStringSearcher.matchesAt_iff_splits.mp hmatch
    have hs : s = before ++ (sub ++ behind) := by
      rw [← hsplits.eq_append, String.copy_toSlice]
    refine ⟨before, behind, by rw [hs, String.append_assoc], ?_, fun k hk hprefix => ?_⟩
    · exact (String.Slice.Pos.splits_ofToSlice_iff.mpr hsplits).copy_sliceTo_eq
    · -- an earlier match by characters would be an earlier one by bytes
      obtain ⟨rest, hrest⟩ := hprefix
      have hcut : s.toSlice.copy = .ofList (s.toList.take k) ++ (sub ++ .ofList rest) := by
        rw [String.copy_toSlice, ← String.toList_inj]
        simp [hrest]
      have hsplits' := String.Slice.Pos.splits_ofEqAppend hcut
      apply hfirst _ (Std.not_le.mp fun hle => ?_)
        (ForwardStringSearcher.matchesAt_iff_splits.mpr ⟨_, _, hsplits'⟩)
      obtain ⟨more, hmore, -⟩ := (hsplits.le_iff_exists_eq_append hsplits').mp hle
      have hlength := congrArg String.length hmore
      rw [String.length_ofList, List.length_take, String.length_append] at hlength
      omega

end

variable {s sub : String}

/-- A text that is not found has no place, and one that is found has a first one, behind `before`. -/
theorem position_cases (hs : s.length < 2 ^ 63) (sub : String) :
    (position s sub = 0 ∧ ¬ sub.toList <:+: s.toList) ∨
      ∃ before behind, s = before ++ sub ++ behind ∧
        (position s sub).toInt = before.length + 1 ∧
        ∀ k < before.length, ¬ sub.toList <+: s.toList.drop k := by
  rw [position]
  cases hfind : s.find? sub with
  | none =>
    rw [String.find?_eq_find?_toSlice, Option.map_eq_none_iff, String.Slice.find?_eq_none_iff,
      String.Slice.contains_string_eq_false_iff, String.copy_toSlice] at hfind
    exact Or.inl ⟨rfl, hfind⟩
  | some p =>
    obtain ⟨before, behind, hsplit, hbefore, hfirst⟩ := find?_eq_some hfind
    have hlength := congrArg String.length hsplit
    rw [String.length_append, String.length_append] at hlength
    have hfits : before.length + 1 < 2 ^ 63 := by
      obtain rfl | hsub := eq_or_ne sub ""
      · -- the empty text is not looked for behind the first place
        have hzero : ¬ 0 < before.length := fun hlt => hfirst 0 hlt List.nil_prefix
        omega
      · have hpos : sub.length ≠ 0 := by rwa [Ne, String.length_eq_zero_iff]
        omega
    have hmin := Int64.toInt_minValue
    have hmax := Int64.toInt_maxValue
    refine Or.inr ⟨before, behind, hsplit, ?_, hfirst⟩
    rw [← hbefore] at hfits ⊢
    refine toInt_of_eq_ofInt ?_ (by omega) (by omega)
    rw [Int64.ofInt_add, Int64.ofInt_eq_ofNat]
    rfl

theorem position_nonneg (hs : s.length < 2 ^ 63) (sub : String) : 0 ≤ (position s sub).toInt := by
  obtain ⟨hzero, -⟩ | ⟨before, _, _, hplace, _⟩ := position_cases hs sub
  · rw [hzero, Int64.toInt_zero]
  · omega

/-- **No later than any occurrence**: the position of a text that occurs somewhere is a place, and
not behind that one. -/
theorem OccursAt.position_le (hs : s.length < 2 ^ 63) {q : Int} (hq : 1 ≤ q)
    (h : OccursAt s sub q) : 1 ≤ (position s sub).toInt ∧ (position s sub).toInt ≤ q := by
  obtain ⟨-, hnowhere⟩ | ⟨before, _, _, hplace, hfirst⟩ := position_cases hs sub
  · exact absurd (h.isInfix.trans (List.drop_suffix _ _).isInfix) hnowhere
  · refine ⟨by omega, ?_⟩
    by_contra hlt
    exact hfirst (q - 1).toNat (by omega) h

theorem position_eq_zero_iff (hs : s.length < 2 ^ 63) :
    position s sub = 0 ↔ ¬ sub.toList <:+: s.toList := by
  obtain ⟨hzero, hnowhere⟩ | ⟨before, behind, hsplit, hplace, -⟩ := position_cases hs sub
  · exact iff_of_true hzero hnowhere
  · apply iff_of_false
    · intro hzero
      rw [hzero, Int64.toInt_zero] at hplace
      omega
    · rw [not_not, hsplit, String.toList_append, String.toList_append]
      exact List.infix_append ..

/-- **The text is there** where its position says, and ends in the string. -/
theorem substring_position (hs : s.length < 2 ^ 63) (h : 0 < (position s sub).toInt) :
    (position s sub).toInt + (length sub).toInt - 1 ≤ (length s).toInt ∧
      substring s (position s sub) (length sub) = sub := by
  obtain ⟨hzero, -⟩ | ⟨before, behind, hsplit, hplace, -⟩ := position_cases hs sub
  · rw [hzero, Int64.toInt_zero] at h
    omega
  · have hlength := congrArg String.length hsplit
    rw [String.length_append, String.length_append] at hlength
    have hsub := toInt_length (show sub.length < 2 ^ 63 by omega)
    refine ⟨by rw [hplace, hsub, toInt_length hs]; omega, ?_⟩
    rw [← String.toList_inj, toList_substring hs (by omega), hplace, hsub, Int.add_sub_cancel,
      Int.toNat_natCast, Int.toNat_natCast, hsplit, String.toList_append, String.toList_append,
      List.append_assoc, ← String.length_toList, ← String.length_toList, List.drop_left,
      List.take_left]

/-- A substring occurs where it was taken from. -/
theorem occursAt_substring (hs : s.length < 2 ^ 63) {i : Int64} (hi : 1 ≤ i.toInt) (n : Int64) :
    OccursAt s (substring s i n) i.toInt := by
  rw [OccursAt, toList_substring hs hi]
  exact List.take_prefix ..

/-- **The position is the least place.** If it is positive, the text is there, up to a place of the
string, and at no place in front of it. It is zero exactly if the text is no part of the string. So a
substring is found no later than where it was taken from. -/
theorem position_least (s sub : String) (hs : s.length < 2 ^ 63) :
    0 ≤ position s sub ∧
      (0 < position s sub →
        (position s sub).toInt + (length sub).toInt - 1 ≤ (length s).toInt ∧
          substring s (position s sub) (length sub) = sub ∧
          ∀ q : Int, 1 ≤ q → q < (position s sub).toInt → ¬ OccursAt s sub q) ∧
      (position s sub = 0 ↔ ¬ sub.toList <:+: s.toList) ∧
      ∀ i n : Int64, 1 ≤ i → i ≤ length s → 1 ≤ n →
        1 ≤ position s (substring s i n) ∧ position s (substring s i n) ≤ i := by
  simp only [Int64.le_iff_toInt_le, Int64.lt_iff_toInt_lt, Int64.toInt_zero, Int64.toInt_one]
  refine ⟨position_nonneg hs sub, fun hpos => ?_, position_eq_zero_iff hs, fun i n hi _ _ => ?_⟩
  · obtain ⟨hstop, hsub⟩ := substring_position hs hpos
    refine ⟨hstop, hsub, fun q hq hlt hoccurs => ?_⟩
    have hle := (hoccurs.position_le hs hq).2
    omega
  · exact (occursAt_substring hs hi n).position_le hs hi

/-- A text of characters with two bytes each, behind a place where only its first character is. -/
theorem position_least_repeated : ∃ s sub : String, s = "éaéé" ∧ sub = "éé" ∧
    s.length < 2 ^ 63 ∧ substring s 3 2 = sub ∧ position s sub = 3 := by
  have hs : "éaéé".length < 2 ^ 63 := by decide
  have hthird : substring "éaéé" 3 2 = "éé" := by decide
  obtain ⟨-, hleast, -, hsubstring⟩ := position_least "éaéé" "éé" hs
  have hbounds := hsubstring 3 2 (by decide) (by decide) (by decide)
  rw [hthird] at hbounds
  have hge : 1 ≤ (position "éaéé" "éé").toInt := Int64.le_iff_toInt_le.mp hbounds.1
  have hle : (position "éaéé" "éé").toInt ≤ 3 := Int64.le_iff_toInt_le.mp hbounds.2
  obtain ⟨-, hthere, -⟩ := hleast (Int64.lt_iff_toInt_lt.mpr hge)
  refine ⟨_, _, rfl, rfl, hs, hthird, Int64.toInt_inj.mp ?_⟩
  obtain h | h | h : (position "éaéé" "éé").toInt = 1 ∨ (position "éaéé" "éé").toInt = 2 ∨
      (position "éaéé" "éé").toInt = 3 := by omega
  · have hfirst : position "éaéé" "éé" = 1 := Int64.toInt_inj.mp h
    rw [hfirst] at hthere
    exact absurd hthere (by decide)
  · have hsecond : position "éaéé" "éé" = 2 := Int64.toInt_inj.mp h
    rw [hsecond] at hthere
    exact absurd hthere (by decide)
  · exact h

end Scriptling.Strings

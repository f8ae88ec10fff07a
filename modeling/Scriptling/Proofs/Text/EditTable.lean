import Mathlib.Data.List.Basic
import Scriptling.Proofs.Text.Edits
import Scriptling.Text.EditDistance

/-!
# The table of distances

A row of the table belongs to a beginning of the first text, and holds in place `k` its distance
from the first `k` characters of the second text. `Computed b as k row` says that this is so up to
place `k`; behind, the row may hold anything, which is what a row that is written over does.

What one entry (`fill?_eq`), the rest of a row (`foldlM_fill?_eq`) and one row more (`next?_eq`) do
to this is shown in turn, and also that each of them has a result: no place is looked up that a row
does not have.

Main statement: the table ends with the distance of the two texts, the least number of edits that
turn the one into the other (`editDistance_least`).
-/

namespace Scriptling.Text

/-- The row for `as` holds the distances from the beginnings of `b` that have fewer than `k`
characters. -/
structure Computed (b as : List Char) (k : Nat) (row : Array Nat) : Prop where
  /-- there is a place for each beginning of `b` -/
  size : row.size = b.length + 1
  /-- the entries are distances -/
  entry : ∀ j < k, row[j]? = some (distance as (b.take j))

/-- The rows between two steps: the one above is complete, and the other one is as long. -/
structure Rows.Ready (b as : List Char) (rows : Rows) : Prop where
  /-- the last row is complete -/
  above : Computed b as (b.length + 1) rows.above
  /-- the other row has the same places -/
  here : rows.here.size = b.length + 1

namespace Rows

variable {b as : List Char} {c : Char} {above here : Array Nat} {k : Nat}

theorem ready_first (b : List Char) : Ready b [] (first b.length) where
  above := by
    refine ⟨by simp [first], fun j hj => ?_⟩
    have hle : j ≤ b.length := Nat.le_of_lt_succ hj
    simp [first, hj, hle]
  here := by simp [first]

/-- A row with the next entry put in. -/
theorem put?_eq (h : Computed b as k here) (hk : k ≤ b.length) :
    ∃ here', put? here k (distance as (b.take k)) = some here' ∧ Computed b as (k + 1) here' := by
  have hlt : k < here.size := by
    rw [h.size]
    omega
  refine ⟨here.set k _ hlt, dif_pos hlt, ?_, ?_⟩
  · rw [Array.size_set, h.size]
  · intro j hj
    rw [Array.getElem?_set hlt]
    split_ifs with hjk
    · rw [hjk]
    · exact h.entry j (by omega)

/-- **One entry**, from the three beside it. -/
theorem fill?_eq {d : Char} (habove : Computed b as (b.length + 1) above)
    (hhere : Computed b (as ++ [c]) (k + 1) here) (hd : b[k]? = some d) :
    ∃ here', fill? c ⟨above, here⟩ (d, k + 1) = some ⟨above, here'⟩ ∧
      Computed b (as ++ [c]) (k + 2) here' := by
  have hk : k < b.length := (List.getElem?_eq_some_iff.mp hd).1
  have hup := habove.entry (k + 1) (by omega)
  have hdiagonal := habove.entry k (by omega)
  have hleft := hhere.entry k (by omega)
  obtain ⟨here', hput, hhere'⟩ := put?_eq hhere hk
  refine ⟨here', ?_, hhere'⟩
  have htake : b.take (k + 1) = b.take k ++ [d] := by rw [List.take_add_one, hd, Option.toList]
  rw [htake, distance_concat_concat, ← htake] at hput
  simp only [fill?, Nat.add_sub_cancel, hup, hleft, hdiagonal, Option.bind_eq_bind,
    Option.bind_some, hput]
  rfl

/-- **The rest of a row**, for the characters of the second text that are left. -/
theorem foldlM_fill?_eq {before behind : List Char} (hb : b = before ++ behind)
    (habove : Computed b as (b.length + 1) above)
    (hhere : Computed b (as ++ [c]) (before.length + 1) here) :
    ∃ here', (behind.zipIdx (before.length + 1)).foldlM (fill? c) ⟨above, here⟩ =
      some ⟨above, here'⟩ ∧ Computed b (as ++ [c]) (b.length + 1) here' := by
  induction behind generalizing before here with
  | nil =>
    rw [List.append_nil] at hb
    subst hb
    exact ⟨here, rfl, hhere⟩
  | cons d behind ih =>
    have hd : b[before.length]? = some d := by simp [hb]
    obtain ⟨here₁, hfill, hhere₁⟩ := fill?_eq habove hhere hd
    have hb' : b = (before ++ [d]) ++ behind := by simp [hb]
    obtain ⟨here₂, hrest, hhere₂⟩ := ih hb' (by simpa using hhere₁)
    refine ⟨here₂, ?_, hhere₂⟩
    rw [List.zipIdx_cons, List.foldlM_cons, hfill]
    simpa using hrest

/-- **One row more.** -/
theorem Ready.next?_eq {rows : Rows} (h : Ready b as rows) (c : Char) :
    ∃ rows', next? b rows (c, as.length + 1) = some rows' ∧ Ready b (as ++ [c]) rows' := by
  obtain ⟨above, here⟩ := rows
  have hstart : Computed b (as ++ [c]) 0 here := ⟨h.here, by simp⟩
  obtain ⟨here₁, hput, hhere₁⟩ := put?_eq hstart (Nat.zero_le _)
  obtain ⟨here₂, hrest, hhere₂⟩ := foldlM_fill?_eq (List.nil_append b).symm h.above hhere₁
  refine ⟨⟨here₂, above⟩, ?_, ⟨hhere₂, h.above.size⟩⟩
  have hfirst : distance (as ++ [c]) (b.take 0) = as.length + 1 := by simp
  rw [hfirst] at hput
  simp only [next?, hput, Option.bind_eq_bind, Option.bind_some]
  rw [List.length_nil, Nat.zero_add] at hrest
  rw [hrest]
  rfl

/-- All rows that are left. -/
theorem Ready.foldlM_next?_eq {rows : Rows} (h : Ready b as rows) (cs : List Char) :
    ∃ rows', (cs.zipIdx (as.length + 1)).foldlM (next? b) rows = some rows' ∧
      Ready b (as ++ cs) rows' := by
  induction cs generalizing as rows with
  | nil => exact ⟨rows, rfl, by rwa [List.append_nil]⟩
  | cons c cs ih =>
    obtain ⟨rows₁, hnext, hready⟩ := h.next?_eq c
    obtain ⟨rows₂, hrest, hready₂⟩ := ih hready
    refine ⟨rows₂, ?_, by simpa using hready₂⟩
    rw [List.zipIdx_cons, List.foldlM_cons, hnext]
    simpa using hrest

end Rows

/-- The table has a last entry, and it is the distance. -/
theorem editDistance?_eq (a b : String) :
    editDistance? a b = some (distance a.toList b.toList) := by
  rw [editDistance?]
  split_ifs with ha hb
  · rw [List.length_eq_zero_iff.mp ha, distance_nil_left]
  · rw [List.length_eq_zero_iff.mp hb, distance_nil_right]
  · obtain ⟨rows, hrows, hready⟩ := (Rows.ready_first b.toList).foldlM_next?_eq a.toList
    have hlast := hready.above.entry b.toList.length (Nat.lt_succ_self _)
    rw [List.take_length] at hlast
    rw [List.length_nil, Nat.zero_add] at hrows
    rw [hrows]
    exact hlast

theorem editDistance_eq (a b : String) : editDistance a b = distance a.toList b.toList := by
  rw [editDistance, editDistance?_eq, Option.getD_some]

/-- **The edit distance is the least number of edits.** No place is looked up that a row of the
table does not have, and the result is the least number of insertions, deletions and replacements
that turn the one text into the other, which the recursion on their characters gives too. So it is
a metric on texts, and lies between the difference and the maximum of their lengths. -/
theorem editDistance_least (a b : String) :
    editDistance? a b = some (editDistance a b) ∧
      IsLeast {n | Edits n a.toList b.toList} (editDistance a b) ∧
      editDistance a b = distance a.toList b.toList ∧
      (editDistance a b = 0 ↔ a = b) ∧
      editDistance a b = editDistance b a ∧
      (∀ c : String, editDistance a c ≤ editDistance a b + editDistance b c) ∧
      max a.length b.length - min a.length b.length ≤ editDistance a b ∧
      editDistance a b ≤ max a.length b.length := by
  simp only [editDistance_eq, ← String.length_toList, true_and]
  refine ⟨editDistance?_eq a b, isLeast_distance _ _, ?_, distance_comm _ _, ?_, ?_,
    distance_le_max _ _⟩
  · rw [distance_eq_zero_iff, String.toList_inj]
  · intro c
    exact distance_triangle _ _ _
  · have hleft := length_le_add_distance a.toList b.toList
    have hright := length_le_add_distance b.toList a.toList
    rw [distance_comm] at hright
    omega

/-- Two replacements and an insertion. -/
example : editDistance "kitten" "sitting" = 3 := by decide

end Scriptling.Text

import Mathlib.Order.Bounds.Basic
import Mathlib.Order.MinMax

/-!
# Edits of texts

A text is edited by putting in, taking out or replacing one of its characters, wherever it stands
(`Edit`), and `Edits n as bs` says that `n` edits turn one text into another. The least such `n` is
computed from the first characters of both texts: one of them is taken out, or put in, or the one
is turned into the other (`distance`).

Main statement: `distance` is the least number of edits (`isLeast_distance`). That it is reached is
shown by recursion. That no row of edits is shorter holds because a single edit has distance at
most one, and because distances obey the triangle inequality (`distance_triangle`).
-/

namespace Scriptling.Text

/-- One character is put in, taken out or replaced. -/
inductive Edit : List Char → List Char → Prop
  /-- a character is put in -/
  | insert (before behind : List Char) (c : Char) :
      Edit (before ++ behind) (before ++ c :: behind)
  /-- a character is taken out -/
  | delete (before behind : List Char) (c : Char) :
      Edit (before ++ c :: behind) (before ++ behind)
  /-- a character is replaced -/
  | replace (before behind : List Char) (c d : Char) :
      Edit (before ++ c :: behind) (before ++ d :: behind)

/-- So many edits, one after the other, turn one text into another. -/
inductive Edits : Nat → List Char → List Char → Prop
  /-- nothing is edited -/
  | refl (as : List Char) : Edits 0 as as
  /-- one edit, and then others -/
  | step {n : Nat} {as bs cs : List Char} : Edit as bs → Edits n bs cs → Edits (n + 1) as cs

/-- The distance of two texts, by their first characters. -/
def distance : List Char → List Char → Nat
  | [], bs => bs.length
  | as, [] => as.length
  | a :: as, b :: bs =>
    min (min (distance as (b :: bs) + 1) (distance (a :: as) bs + 1))
      (distance as bs + if a = b then 0 else 1)
termination_by as bs => as.length + bs.length

@[simp]
theorem distance_nil_left (bs : List Char) : distance [] bs = bs.length := by
  rw [distance]

@[simp]
theorem distance_nil_right (as : List Char) : distance as [] = as.length := by
  cases as <;> simp [distance]

theorem distance_cons_cons (a b : Char) (as bs : List Char) :
    distance (a :: as) (b :: bs) =
      min (min (distance as (b :: bs) + 1) (distance (a :: as) bs + 1))
        (distance as bs + if a = b then 0 else 1) := by
  rw [distance]

/-- The distance is reached in one of the three ways. -/
theorem distance_cons_cons_eq_or (a b : Char) (as bs : List Char) :
    distance (a :: as) (b :: bs) = distance as (b :: bs) + 1 ∨
      distance (a :: as) (b :: bs) = distance (a :: as) bs + 1 ∨
      distance (a :: as) (b :: bs) = distance as bs + if a = b then 0 else 1 := by
  rw [distance_cons_cons]
  grind

/-! ## Edits -/

section

variable {n : Nat} {as bs : List Char}

theorem Edit.cons (c : Char) (h : Edit as bs) : Edit (c :: as) (c :: bs) := by
  cases h with
  | insert before behind d => exact .insert (c :: before) behind d
  | delete before behind d => exact .delete (c :: before) behind d
  | replace before behind d e => exact .replace (c :: before) behind d e

theorem Edit.reverse (h : Edit as bs) : Edit as.reverse bs.reverse := by
  cases h with
  | insert before behind c =>
    simpa using Edit.insert behind.reverse before.reverse c
  | delete before behind c =>
    simpa using Edit.delete behind.reverse before.reverse c
  | replace before behind c d =>
    simpa using Edit.replace behind.reverse before.reverse c d

/-- The same edits behind another character. -/
theorem Edits.cons (c : Char) (h : Edits n as bs) : Edits n (c :: as) (c :: bs) := by
  induction h with
  | refl as => exact .refl (c :: as)
  | step hedit _ ih => exact .step (hedit.cons c) ih

/-- The same edits, read from the end. -/
theorem Edits.reverse (h : Edits n as bs) : Edits n as.reverse bs.reverse := by
  induction h with
  | refl as => exact .refl as.reverse
  | step hedit _ ih => exact .step hedit.reverse ih

theorem edits_insert (bs : List Char) : Edits bs.length [] bs := by
  induction bs with
  | nil => exact .refl []
  | cons b bs ih => exact .step (.insert [] [] b) (ih.cons b)

theorem edits_delete (as : List Char) : Edits as.length as [] := by
  induction as with
  | nil => exact .refl []
  | cons a as ih => exact .step (.delete [] as a) ih

/-- There are as many edits as the distance says. -/
theorem edits_distance (as bs : List Char) : Edits (distance as bs) as bs := by
  fun_induction distance as bs with
  | case1 bs => exact edits_insert bs
  | case2 as => exact edits_delete as
  | case3 a as b bs delete insert pair =>
    rw [← distance_cons_cons]
    obtain hway | hway | hway := distance_cons_cons_eq_or a b as bs
    · rw [hway]
      exact .step (.delete [] as a) delete
    · rw [hway]
      exact .step (.insert [] (a :: as) b) (insert.cons b)
    · rw [hway]
      by_cases hab : a = b
      · subst hab
        rw [if_pos rfl]
        exact pair.cons a
      · rw [if_neg hab]
        exact .step (.replace [] as a b) (pair.cons b)

end

/-! ## Distances -/

/-- A character more in the second text is at most one edit more. -/
theorem distance_cons_right_le (b : Char) (as bs : List Char) :
    distance as (b :: bs) ≤ distance as bs + 1 := by
  cases as with
  | nil => simp
  | cons a as =>
    rw [distance_cons_cons]
    omega

/-- A character more in the first text is at most one edit more. -/
theorem distance_cons_left_le (a : Char) (as bs : List Char) :
    distance (a :: as) bs ≤ distance as bs + 1 := by
  cases bs with
  | nil => simp
  | cons b bs =>
    rw [distance_cons_cons]
    omega

/-- A character turned into another one is an edit, unless it is the same. -/
theorem distance_cons_cons_le (a b : Char) (as bs : List Char) :
    distance (a :: as) (b :: bs) ≤ distance as bs + if a = b then 0 else 1 := by
  rw [distance_cons_cons]
  exact min_le_right _ _

theorem distance_comm (as bs : List Char) : distance as bs = distance bs as := by
  fun_induction distance as bs with
  | case1 bs => simp
  | case2 as => simp
  | case3 a as b bs delete insert pair =>
    rw [distance_cons_cons, delete, insert, pair, min_comm (distance (b :: bs) as + 1)]
    simp only [eq_comm]

theorem distance_le_max (as bs : List Char) : distance as bs ≤ max as.length bs.length := by
  fun_induction distance as bs with
  | case1 bs => simp
  | case2 as => simp
  | case3 a as b bs delete insert pair =>
    simp only [List.length_cons] at *
    split <;> omega

theorem length_le_add_distance (as bs : List Char) :
    as.length ≤ bs.length + distance as bs := by
  fun_induction distance as bs with
  | case1 bs => simp
  | case2 as => simp
  | case3 a as b bs delete insert pair =>
    simp only [List.length_cons] at *
    omega

/-- **Distances obey the triangle inequality.** -/
theorem distance_triangle (as bs cs : List Char) :
    distance as cs ≤ distance as bs + distance bs cs := by
  rcases as with _ | ⟨a, as⟩
  · have hlength := length_le_add_distance cs bs
    rw [distance_comm cs bs] at hlength
    simpa using hlength
  rcases cs with _ | ⟨c, cs⟩
  · have hlength := length_le_add_distance (a :: as) bs
    simpa [Nat.add_comm] using hlength
  rcases bs with _ | ⟨b, bs⟩
  · have hmax := distance_le_max (a :: as) (c :: cs)
    simp only [distance_nil_left, distance_nil_right]
    omega
  -- what happens to the first characters in two steps is done in one
  obtain hfirst | hfirst := distance_cons_cons_eq_or a b as bs
  · have hdelete := distance_cons_left_le a as (c :: cs)
    have ih := distance_triangle as (b :: bs) (c :: cs)
    omega
  obtain hsecond | hsecond | hsecond := distance_cons_cons_eq_or b c bs cs
  · -- what is taken out was put in before, or took the place of another character
    obtain hfirst | hfirst := hfirst
    · have ih := distance_triangle (a :: as) bs (c :: cs)
      omega
    · have hdelete := distance_cons_left_le a as (c :: cs)
      have ih := distance_triangle as bs (c :: cs)
      omega
  · have hinsert := distance_cons_right_le c (a :: as) cs
    have ih := distance_triangle (a :: as) (b :: bs) cs
    omega
  · obtain hfirst | hfirst := hfirst
    · have hinsert := distance_cons_right_le c (a :: as) cs
      have ih := distance_triangle (a :: as) bs cs
      omega
    · have hpair := distance_cons_cons_le a c as cs
      have ih := distance_triangle as bs cs
      have hcost : (if a = c then 0 else 1) ≤
          (if a = b then 0 else 1) + if b = c then 0 else 1 := by
        split_ifs <;> simp_all
      omega
termination_by as.length + bs.length + cs.length

@[simp]
theorem distance_self (as : List Char) : distance as as = 0 := by
  induction as with
  | nil => simp
  | cons a as ih => simpa [ih] using distance_cons_cons_le a a as as

/-- What two texts begin with in common does not count. -/
theorem distance_append_left_le (before as bs : List Char) :
    distance (before ++ as) (before ++ bs) ≤ distance as bs := by
  induction before with
  | nil => exact le_rfl
  | cons c before ih =>
    have hpair := distance_cons_cons_le c c (before ++ as) (before ++ bs)
    rw [if_pos rfl] at hpair
    exact hpair.trans ih

section

variable {n : Nat} {as bs : List Char}

theorem Edit.distance_le_one (h : Edit as bs) : distance as bs ≤ 1 := by
  cases h with
  | insert before behind c =>
    apply (distance_append_left_le before behind (c :: behind)).trans
    simpa using distance_cons_right_le c behind behind
  | delete before behind c =>
    apply (distance_append_left_le before (c :: behind) behind).trans
    simpa using distance_cons_left_le c behind behind
  | replace before behind c d =>
    apply (distance_append_left_le before (c :: behind) (d :: behind)).trans
    have hpair := distance_cons_cons_le c d behind behind
    rw [distance_self] at hpair
    split_ifs at hpair <;> omega

/-- No row of edits is shorter than the distance. -/
theorem Edits.distance_le (h : Edits n as bs) : distance as bs ≤ n := by
  induction h with
  | refl as => simp
  | @step n as bs cs hedit _ ih =>
    have htriangle := distance_triangle as bs cs
    have hone := hedit.distance_le_one
    omega

end

/-- **The distance is the least number of edits.** -/
theorem isLeast_distance (as bs : List Char) : IsLeast {n | Edits n as bs} (distance as bs) :=
  ⟨edits_distance as bs, fun _ h => h.distance_le⟩

theorem distance_eq_zero_iff {as bs : List Char} : distance as bs = 0 ↔ as = bs := by
  constructor
  · intro hzero
    have hedits := edits_distance as bs
    rw [hzero] at hedits
    cases hedits
    rfl
  · rintro rfl
    exact distance_self as

/-- Texts that are both read from the end have the same distance. -/
theorem distance_reverse (as bs : List Char) :
    distance as.reverse bs.reverse = distance as bs := by
  apply le_antisymm
  · exact (edits_distance as bs).reverse.distance_le
  · simpa using (edits_distance as.reverse bs.reverse).reverse.distance_le

/-- The distance by the last characters, which is how the table computes it. -/
theorem distance_concat_concat (a b : Char) (as bs : List Char) :
    distance (as ++ [a]) (bs ++ [b]) =
      min (min (distance as (bs ++ [b]) + 1) (distance (as ++ [a]) bs + 1))
        (distance as bs + if a = b then 0 else 1) := by
  rw [← distance_reverse (as ++ [a]), ← distance_reverse as (bs ++ [b]),
    ← distance_reverse (as ++ [a]) bs, ← distance_reverse as bs]
  simp only [List.reverse_append, List.reverse_singleton, List.singleton_append]
  exact distance_cons_cons a b as.reverse bs.reverse

end Scriptling.Text

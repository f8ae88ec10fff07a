import Mathlib.Data.List.TakeWhile
import Scriptling.Text.Whitespace

/-!
# Runs of characters

A text can begin with a run of characters of one class, and it can end with one. The longest run is
the one behind which, or in front of which, comes a character of another class: this is how the
characters of a class are taken off at the front (`takeWhile_append_of_run`,
`dropWhile_append_of_run`) and at the end (`dropWhileEnd_eq_iff`).

So a text is trimmed to what is between two runs of white space and neither begins nor ends with
any (`trim_eq_iff`).
-/

namespace Scriptling.Text

variable {p : Char → Bool}

/-! ## At the front -/

section

variable {run rest : List Char}

theorem takeWhile_append_of_run (hrun : ∀ d ∈ run, p d = true)
    (hrest : ∀ d ∈ rest.head?, p d = false) : (run ++ rest).takeWhile p = run := by
  rw [List.takeWhile_append_of_pos hrun]
  cases rest with
  | nil => simp
  | cons d rest => simp [hrest d rfl]

theorem dropWhile_append_of_run (hrun : ∀ d ∈ run, p d = true)
    (hrest : ∀ d ∈ rest.head?, p d = false) : (run ++ rest).dropWhile p = rest := by
  rw [List.dropWhile_append_of_pos hrun]
  cases rest with
  | nil => rfl
  | cons d rest => simp [hrest d rfl]

/-- Behind a run comes a character of another class, if any. -/
theorem eq_false_of_mem_head?_dropWhile {cs : List Char} {d : Char}
    (hd : d ∈ (cs.dropWhile p).head?) : p d = false := by
  have hnot := List.head?_dropWhile_not p cs
  rw [hd] at hnot
  exact hnot

end

/-! ## At the end -/

/-- **The longest run is taken off** at the end. -/
theorem dropWhileEnd_eq_iff {cs front : List Char} : dropWhileEnd p cs = front ↔
    ∃ run, cs = front ++ run ∧ (∀ c ∈ run, p c = true) ∧ ∀ c ∈ front.getLast?, p c = false := by
  constructor
  · rintro rfl
    refine ⟨(cs.reverse.takeWhile p).reverse, ?_, ?_, ?_⟩
    · rw [dropWhileEnd, ← List.reverse_append, List.takeWhile_append_dropWhile,
        List.reverse_reverse]
    · intro c hc
      exact List.mem_takeWhile_imp (List.mem_reverse.mp hc)
    · intro c hc
      rw [dropWhileEnd, List.getLast?_reverse] at hc
      exact eq_false_of_mem_head?_dropWhile hc
  · rintro ⟨run, rfl, hrun, hfront⟩
    have hrun' : ∀ c ∈ run.reverse, p c = true := fun c hc => hrun c (List.mem_reverse.mp hc)
    have hfront' : ∀ c ∈ front.reverse.head?, p c = false := by rwa [List.head?_reverse]
    rw [dropWhileEnd, List.reverse_append, dropWhile_append_of_run hrun' hfront',
      List.reverse_reverse]

/-! ## White space at both ends -/

/-- The text is `core` with white space around it, and `core` has none at its ends. -/
def Trimmed (cs core : List Char) : Prop :=
  ∃ before behind, cs = before ++ core ++ behind ∧
    (∀ c ∈ before, isWhiteSpace c = true) ∧ (∀ c ∈ behind, isWhiteSpace c = true) ∧
    (∀ c ∈ core.head?, isWhiteSpace c = false) ∧ ∀ c ∈ core.getLast?, isWhiteSpace c = false

theorem trim_eq_iff {cs core : List Char} : trim cs = core ↔ Trimmed cs core := by
  rw [trim, dropWhileEnd_eq_iff]
  constructor
  · rintro ⟨behind, hdrop, hbehind, hlast⟩
    refine ⟨cs.takeWhile isWhiteSpace, behind, ?_, ?_, hbehind, ?_, hlast⟩
    · rw [List.append_assoc, ← hdrop, List.takeWhile_append_dropWhile]
    · intro c hc
      exact List.mem_takeWhile_imp hc
    · intro c hc
      have hfirst : c ∈ (cs.dropWhile isWhiteSpace).head? := by
        rw [hdrop]
        cases core with
        | nil => cases hc
        | cons d core => exact hc
      exact eq_false_of_mem_head?_dropWhile hfirst
  · rintro ⟨before, behind, rfl, hbefore, hbehind, hfirst, hlast⟩
    rcases core with _ | ⟨c, core⟩
    · -- white space only
      refine ⟨[], ?_, by simp, by simp⟩
      simp only [List.append_nil, List.dropWhile_eq_nil_iff]
      intro c hc
      rcases List.mem_append.mp hc with hc | hc
      · exact hbefore c hc
      · exact hbehind c hc
    · refine ⟨behind, ?_, hbehind, hlast⟩
      rw [List.append_assoc, dropWhile_append_of_run hbefore]
      simpa using hfirst

end Scriptling.Text

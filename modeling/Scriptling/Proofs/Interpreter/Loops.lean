import Mathlib.Data.Int.Range
import Scriptling.Proofs.Interpreter.FrameLaw

/-!
# Loops as folds

A loop counts up in fixed-width integers and keeps the number of rounds that are left. What it
does can be said without a counter: it is a fold, from the left, over the integers from the first
bound to the last one, as they are in the order of all integers (`exec_forTo_eq_foldl`). Each
round stores its integer and executes the body; the rounds come one after the other as long as
the loop is going (`LoopState`).

The integers of the fold are fixed when the bounds have been evaluated, so nothing that the body
stores has an influence on them. What the body can do is to bring in a variable of another kind;
but the loop variable is in the frame at hand after the first round, where it keeps its kind. So
only the first round can fail to store it.
-/

namespace Scriptling

/-- How far a loop has come. -/
inductive LoopState (ι ο : Type)
  /-- it goes on with the next integer -/
  | going (m : Machine ι ο)
  /-- it is over -/
  | ended (result : Except RunError Flow) (m : Machine ι ο)

namespace LoopState

variable {ι ο : Type}

/-- What the loop comes to if no integer is left. -/
def result : LoopState ι ο → Except RunError Flow × Machine ι ο
  | going m => (.ok .normal, m)
  | ended r m => (r, m)

variable [LineSource ι] [LineSink ο]

/-- The loop at `span` after the round for an integer: the variable is set to the integer in the
frame at hand, and the body is executed. A loop that is over stays as it is. -/
def next (span : Span) (x : String) (body : Stmt) : LoopState ι ο → Int → LoopState ι ο
  | ended r m, _ => ended r m
  | going m, i =>
    match m.scopes.assign x (.int (.ofInt i)) with
    | .error f => ended (.error ⟨f, span⟩) m
    | .ok scopes =>
      match (exec body).run { m with scopes } with
      | (.ok .normal, m') | (.ok (.jump .continue_), m') => going m'
      | (.ok (.jump .break_), m') => ended (.ok .normal) m'
      | (.ok .exit, m') => ended (.ok .exit) m'
      | (.error e, m') => ended (.error e) m'

variable {span : Span} {x : String} {body : Stmt}

@[simp] theorem next_ended (r : Except RunError Flow) (m : Machine ι ο) (i : Int) :
    next span x body (ended r m) i = ended r m := rfl

@[simp] theorem foldl_next_ended (r : Except RunError Flow) (m : Machine ι ο) (is : List Int) :
    is.foldl (next span x body) (ended r m) = ended r m := by
  induction is with
  | nil => rfl
  | cons i is ih => simp [ih]

/-- A loop is going only if it was going before. -/
theorem exists_of_next_eq_going {state : LoopState ι ο} {i : Int} {m' : Machine ι ο}
    (h : next span x body state i = going m') : ∃ m, state = going m := by
  cases state with
  | going m => exact ⟨m, rfl⟩
  | ended r m => cases h

/-- **The variable is there after a round**, and it is an integer. -/
theorem get?_of_next {m m' : Machine ι ο} {i : Int}
    (h : next span x body (going m) i = going m') :
    ∃ v, m'.scopes.get? x = some v ∧ v.kind = .int := by
  simp only [next] at h
  split at h
  · cases h
  · next scopes hassign =>
    obtain ⟨rfl, -⟩ := Scopes.assign_eq_ok_iff.mp hassign
    -- the body may store something else in the variable, but nothing of another kind
    have hframed : (m.scopes.bind x (.int (.ofInt i))).Framed body.writes
        ((exec body).run { m with scopes := m.scopes.bind x (.int (.ofInt i)) }).2.scopes :=
      Scopes.framed_law.exec body (List.Subset.refl _)
        { m with scopes := m.scopes.bind x (.int (.ofInt i)) }
    have hbound : (m.scopes.bind x (.int (.ofInt i))).innermost[x]? = some (.int (.ofInt i)) := by
      simp
    obtain ⟨v, hv, hkind⟩ := hframed.kept x _ hbound
    have hm' : ((exec body).run { m with scopes := m.scopes.bind x (.int (.ofInt i)) }).2 = m' := by
      split at h
      case h_1 hrun | h_2 hrun =>
        rw [hrun]
        injection h
      all_goals cases h
    rw [hm'] at hv
    exact ⟨v, Scopes.get?_of_innermost hv, hkind⟩

/-- **Only the first round can fail to store the variable.** -/
theorem eq_nil_of_assign_eq_error {before : List Int} {m m' : Machine ι ο} {i : Int} {f : Fault}
    (hbefore : before.foldl (next span x body) (going m) = going m')
    (hassign : m'.scopes.assign x (.int (.ofInt i)) = .error f) :
    before = [] ∧ f.category = .typeConflict := by
  obtain ⟨w, hw, hkind, rfl⟩ := Scopes.assign_eq_error_iff.mp hassign
  refine ⟨?_, rfl⟩
  rcases List.eq_nil_or_concat before with hnil | ⟨earlier, j, rfl⟩
  · exact hnil
  · rw [List.concat_eq_append, List.foldl_append, List.foldl_cons, List.foldl_nil] at hbefore
    obtain ⟨m₁, hm₁⟩ := exists_of_next_eq_going hbefore
    rw [hm₁] at hbefore
    obtain ⟨v, hv, hint⟩ := get?_of_next hbefore
    obtain rfl : v = w := Option.some.inj (hv.symm.trans hw)
    exact absurd hint hkind

end LoopState

open LoopState (next)

/-! ## The integers of a loop -/

/-- There is one integer at least, and then one less from the next one on. -/
theorem intRange_succ (a : Int) (count : Nat) :
    Int.range a (a + (count + 1 : Nat)) = a :: Int.range (a + 1) (a + 1 + count) := by
  have hcount : (a + (count + 1 : Nat) - a).toNat = count + 1 := by omega
  have hrest : (a + 1 + count - (a + 1)).toNat = count := by omega
  rw [Int.range, Int.range, hcount, hrest, List.range_succ_eq_map]
  simp only [List.map_cons, List.map_map, Function.comp_def]
  congr 1
  · simp
  · apply List.map_congr_left
    intro k _
    omega

theorem intRange_pairwise (a b : Int) : (Int.range a b).Pairwise (· < ·) := by
  rw [Int.range, List.pairwise_map]
  apply List.pairwise_lt_range.imp
  intro j k hjk
  omega

/-- Integers between two that fit are not changed by the width. -/
theorem toInt_ofInt_of_between {a b : Int64} {i : Int} (ha : a.toInt ≤ i)
    (hb : i ≤ b.toInt) : (Int64.ofInt i).toInt = i := by
  have hlow := a.le_toInt
  have hhigh := b.toInt_lt
  exact Int64.toInt_ofInt_of_le (by omega) (by omega)

/-- The integers that are counted are those between the bounds. -/
theorem Exec.range_roundCount (a b : Int64) :
    Int.range a.toInt (a.toInt + roundCount a b) = Int.range a.toInt (b.toInt + 1) := by
  have hcount : (a.toInt + roundCount a b - a.toInt).toNat = (b.toInt + 1 - a.toInt).toNat := by
    rw [roundCount]
    omega
  rw [Int.range, Int.range, hcount]

/-! ## The fold -/

section

variable {ι ο : Type} [LineSource ι] [LineSink ο]

/-- **Rounds are a fold.** The counter may wrap around behind the last integer, where nobody looks
at it any more. -/
theorem Exec.run_rounds (span : Span) (x : String) (body : Stmt) (a : Int) (count : Nat)
    (m : Machine ι ο) :
    (rounds (fun i => do located span (store x (.int i)); exec body) (.ofInt a) count).run m =
      ((Int.range a (a + count)).foldl (next span x body) (.going m)).result := by
  induction count generalizing a m with
  | zero =>
    have hnone : Int.range a (a + (0 : Nat)) = [] := by simp [Int.range]
    rw [hnone]
    rfl
  | succ count ih =>
    have hnext : Int64.ofInt a + 1 = Int64.ofInt (a + 1) := by
      rw [Int64.ofInt_add]
      rfl
    rw [intRange_succ, List.foldl_cons, rounds, run_bind, run_bind]
    simp only [run_located_store, next]
    rcases m.scopes.assign x (.int (.ofInt a)) with f | scopes
    · simp [LoopState.result]
    · simp only
      rcases (exec body).run { m with scopes } with ⟨e | flow, m'⟩
      · simp [LoopState.result]
      · cases flow with
        | normal =>
          simp only [hnext]
          exact ih (a + 1) m'
        | jump j =>
          cases j
          · simp only [LoopState.foldl_next_ended]
            rfl
          · simp only [hnext]
            exact ih (a + 1) m'
        | exit =>
          simp only [LoopState.foldl_next_ended]
          rfl

/-- **Loops are folds.** If the bounds of a loop come to integers, the first one first and each
once, then the loop is the fold of its rounds over the integers from the one to the other: in
ascending order, none left out, and none changed by the width of integers. The fold starts with the
variables as they were. Of the rounds, only the first can fail to store the variable, and only
because it has another kind. -/
theorem exec_forTo_eq_foldl (m : Machine ι ο) (span : Span) (x : String) (first last : Expr)
    (body : Stmt) {a b : Int64} {input₁ input₂ : ι}
    (hfirst : (eval m.scopes first).run m.input = (.ok (.int a), input₁))
    (hlast : (eval m.scopes last).run input₁ = (.ok (.int b), input₂)) :
    let start : LoopState ι ο := .going { m with input := input₂ }
    let integers := Int.range a.toInt (b.toInt + 1)
    (exec (.forTo span x first last body)).run m =
      (integers.foldl (next span x body) start).result ∧
    (∀ i, i ∈ integers ↔ a.toInt ≤ i ∧ i ≤ b.toInt) ∧
    integers.Pairwise (· < ·) ∧
    (∀ i ∈ integers, (Int64.ofInt i).toInt = i) ∧
    ∀ before i after m' f, integers = before ++ i :: after →
      before.foldl (next span x body) start = .going m' →
      m'.scopes.assign x (.int (.ofInt i)) = .error f →
      before = [] ∧ f.category = .typeConflict := by
  intro start integers
  have hmem (i : Int) : i ∈ integers ↔ a.toInt ≤ i ∧ i ≤ b.toInt := by
    rw [Int.mem_range_iff]
    omega
  refine ⟨?_, hmem, intRange_pairwise _ _, fun i hi => ?_, ?_⟩
  · have hstart : Int64.ofInt a.toInt = a := Int64.ofInt_toInt a
    have hrounds := Exec.run_rounds span x body a.toInt (Exec.roundCount a b)
      { m with input := input₂ }
    rw [hstart, Exec.range_roundCount] at hrounds
    rw [exec_forTo, run_bind]
    simp only [Exec.run_located_evaluate, hfirst]
    rw [run_bind]
    simp only [Exec.run_located_evaluate, hlast]
    exact hrounds
  · exact toInt_ofInt_of_between ((hmem i).mp hi).1 ((hmem i).mp hi).2
  · intro before i after m' f _ hbefore hassign
    exact LoopState.eq_nil_of_assign_eq_error hbefore hassign

end

/-- A loop up to the greatest integer, which a variable holds that the body takes away: there are
two rounds, and the second one is the last. -/
theorem exec_forTo_eq_foldl_maxValue :
    ∃ m : Machine (List String) LineBuffer,
      m.scopes = ⟨[], (∅ : Frame).insert "n" (.int 9223372036854775807), .byName⟩ ∧
      ∃ first last : Expr, ∃ body : Stmt,
        first = .int ⟨9, 28⟩ 9223372036854775806 ∧ last = .var ⟨32, 33⟩ "n" ∧
        body = .assign ⟨37, 43⟩ "n" (.int ⟨42, 43⟩ 0) ∧
        (eval m.scopes first).run m.input = (.ok (.int 9223372036854775806), m.input) ∧
        (eval m.scopes last).run m.input = (.ok (.int 9223372036854775807), m.input) ∧
        (exec (.forTo ⟨0, 43⟩ "i" first last body)).run m =
          (next ⟨0, 43⟩ "i" body (next ⟨0, 43⟩ "i" body (.going m) 9223372036854775806)
            9223372036854775807).result := by
  let m : Machine (List String) LineBuffer :=
    ⟨⟨[], (∅ : Frame).insert "n" (.int 9223372036854775807), .byName⟩, [], .empty⟩
  have hlast : (eval m.scopes (.var ⟨32, 33⟩ "n")).run m.input =
      (.ok (.int 9223372036854775807), m.input) := by
    have hget : m.scopes.get? "n" = some (.int 9223372036854775807) := by
      simp [m, Scopes.get?, Scopes.frames]
    rw [eval, Scopes.lookup, hget]
    rfl
  have hfold := (exec_forTo_eq_foldl m ⟨0, 43⟩ "i" (.int ⟨9, 28⟩ 9223372036854775806)
    (.var ⟨32, 33⟩ "n") (.assign ⟨37, 43⟩ "n" (.int ⟨42, 43⟩ 0)) rfl hlast).1
  exact ⟨m, rfl, _, _, _, rfl, rfl, rfl, rfl, hlast, hfold⟩

end Scriptling

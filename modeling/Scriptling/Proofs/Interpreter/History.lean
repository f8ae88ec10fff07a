import Mathlib.Data.List.Induction
import Mathlib.Data.Nat.Find
import Scriptling.Proofs.Interpreter.TypeLock
import Scriptling.Proofs.Text.Encoding

/-!
# Values by history

What a name is bound to can be told from the operations that were done, without any frames:
it is the value of the latest assignment of the name that succeeded and whose frame is still
live (`Scopes.LiveWrite`).

An assignment goes to the innermost frame. What happens to this frame afterwards is told by
counting the frames above it (`Scopes.Action.above`): a `push` adds one and a `pop` takes one
away. A `pop` with none above takes the frame itself away, and a reset takes all.

The proof looks at the operations from the last one backwards. What is visible when the `c`
innermost frames are left out is decided by the assignments with at least `c` frames above
them (`Scopes.Latest`).
-/

namespace Scriptling

namespace Scopes

variable {l : Listing}

/-- The operations never take the global frame away. -/
def Legal (l : Listing) (actions : List Action) : Prop :=
  ∀ before since, actions = before ++ .pop :: since → 1 < (after l before).depth

/-- The number of frames above a frame after an operation, if there were `n` before. None if
the frame is gone. -/
def Action.above (n : Nat) : Action → Option Nat
  | .push => some (n + 1)
  | .pop => match n with
    | 0 => none
    | n + 1 => some n
  | .set _ _ => some n
  | .reset => none

/-- The number of frames above the frame that was innermost before the operations. None if
the frame is gone. -/
def aboveAfter (since : List Action) : Option Nat :=
  since.foldlM Action.above 0

/-- The name was assigned the value just before the operations `since`, with success, and the
frame it was stored in is live and has `n` frames above it now. -/
def WriteBelow (l : Listing) (actions : List Action) (x : String) (v : Value) (since : List Action)
    (n : Nat) : Prop :=
  ∃ before t, actions = before ++ .set x v :: since ∧ (after l before).assign x v = .ok t ∧
    aboveAfter since = some n

/-- The name was assigned the value just before the operations `since`, with success, and the
frame it was stored in is live. -/
def LiveWrite (l : Listing) (actions : List Action) (x : String) (v : Value)
    (since : List Action) : Prop :=
  ∃ n, WriteBelow l actions x v since n

/-! ## One more operation -/

theorem after_concat (actions : List Action) (a : Action) :
    after l (actions ++ [a]) = (after l actions).act a := by
  simp [after]

theorem aboveAfter_concat (since : List Action) (a : Action) :
    aboveAfter (since ++ [a]) = (aboveAfter since).bind fun n => a.above n := by
  simp [aboveAfter, List.foldlM_append]

theorem Legal.of_concat {actions : List Action} {a : Action} (h : Legal l (actions ++ [a])) :
    Legal l actions := by
  rintro before since rfl
  exact h before (since ++ [a]) (by simp)

theorem Legal.depth_of_pop {actions : List Action} (h : Legal l (actions ++ [.pop])) :
    1 < (after l actions).depth :=
  h actions [] rfl

/-- A write is the last operation, or a write before whose frame the last operation left. -/
theorem writeBelow_concat_iff {actions since : List Action} {a : Action} {x : String} {v : Value}
    {n : Nat} :
    WriteBelow l (actions ++ [a]) x v since n ↔
      (since = [] ∧ n = 0 ∧ a = .set x v ∧ ∃ t, (after l actions).assign x v = .ok t) ∨
      ∃ since' n', since = since' ++ [a] ∧ a.above n' = some n ∧
        WriteBelow l actions x v since' n' := by
  constructor
  · rintro ⟨before, t, hactions, hassign, habove⟩
    rcases List.eq_nil_or_concat since with rfl | ⟨since', b, rfl⟩
    · left
      obtain ⟨rfl, ha⟩ := List.append_inj' hactions rfl
      exact ⟨rfl, (Option.some.inj habove).symm, List.singleton_inj.mp ha, t, hassign⟩
    · right
      rw [List.concat_eq_append, ← List.cons_append, ← List.append_assoc] at hactions
      obtain ⟨rfl, ha⟩ := List.append_inj' hactions rfl
      obtain rfl := List.singleton_inj.mp ha
      rw [List.concat_eq_append, aboveAfter_concat] at habove
      obtain ⟨n', hn', hn⟩ := Option.bind_eq_some_iff.mp habove
      exact ⟨since', n', by simp, hn, before, t, rfl, hassign, hn'⟩
  · rintro (⟨rfl, rfl, rfl, t, hassign⟩ | ⟨since', n', rfl, hn, before, t, rfl, hassign, hn'⟩)
    · exact ⟨actions, t, rfl, hassign, rfl⟩
    · refine ⟨before, t, by simp, hassign, ?_⟩
      rw [aboveAfter_concat, hn', Option.bind_some, hn]

/-! ## The latest write -/

/-- The value is that of the latest write with at least `c` frames above it. -/
def Latest (l : Listing) (actions : List Action) (c : Nat) (x : String) (v : Value) : Prop :=
  ∃ since n, c ≤ n ∧ WriteBelow l actions x v since n ∧
    ∀ w since' n', c ≤ n' → WriteBelow l actions x w since' n' → since.length ≤ since'.length

/-- An operation that is no write in question keeps the latest one. It may change how many
frames are to be above it. -/
theorem latest_concat_iff {actions : List Action} {a : Action} {c c' : Nat} {x : String}
    {v : Value} (habove : ∀ n', (∃ n, a.above n' = some n ∧ c ≤ n) ↔ c' ≤ n')
    (hother : c = 0 → ∀ w t, a = .set x w → (after l actions).assign x w ≠ .ok t) :
    Latest l (actions ++ [a]) c x v ↔ Latest l actions c' x v := by
  have hold : ∀ {w since n}, c ≤ n → WriteBelow l (actions ++ [a]) x w since n →
      ∃ since' n', since = since' ++ [a] ∧ c' ≤ n' ∧ WriteBelow l actions x w since' n' := by
    intro w since n hn hwrite
    rcases writeBelow_concat_iff.mp hwrite with ⟨-, rfl, ha, t, ht⟩ | ⟨since', n', hsince, hn', h⟩
    · exact absurd ht (hother (Nat.le_zero.mp hn) w t ha)
    · exact ⟨since', n', hsince, (habove n').mp ⟨n, hn', hn⟩, h⟩
  have hnew : ∀ {w since' n'}, c' ≤ n' → WriteBelow l actions x w since' n' →
      ∃ n, c ≤ n ∧ WriteBelow l (actions ++ [a]) x w (since' ++ [a]) n := by
    intro w since' n' hn' hwrite
    obtain ⟨n, hn, hc⟩ := (habove n').mpr hn'
    exact ⟨n, hc, writeBelow_concat_iff.mpr (Or.inr ⟨since', n', rfl, hn, hwrite⟩)⟩
  constructor
  · rintro ⟨since, n, hn, hwrite, hlatest⟩
    obtain ⟨since₀, n₀, rfl, hn₀, hwrite₀⟩ := hold hn hwrite
    refine ⟨since₀, n₀, hn₀, hwrite₀, fun w since' n' hn' hwrite' => ?_⟩
    obtain ⟨m, hm, hwritem⟩ := hnew hn' hwrite'
    simpa using hlatest w _ m hm hwritem
  · rintro ⟨since₀, n₀, hn₀, hwrite₀, hlatest⟩
    obtain ⟨n, hn, hwrite⟩ := hnew hn₀ hwrite₀
    refine ⟨_, n, hn, hwrite, fun w since' n' hn' hwrite' => ?_⟩
    obtain ⟨since₁, n₁, rfl, hn₁, hwrite₁⟩ := hold hn' hwrite'
    simpa using hlatest w since₁ n₁ hn₁ hwrite₁

/-! ## Frames left out -/

/-- The value of a name if the `c` innermost frames are left out. -/
def getBelow? (s : Scopes) (c : Nat) (x : String) : Option Value :=
  (s.frames.drop c).findSome? fun f => f[x]?

theorem getBelow?_zero (s : Scopes) (x : String) : s.getBelow? 0 x = s.get? x := rfl

theorem getBelow?_empty (c : Nat) (x : String) : getBelow? (.empty l) c x = none := by
  cases c <;> simp [getBelow?, frames, empty]

theorem getBelow?_push (s : Scopes) (c : Nat) (x : String) :
    s.push.getBelow? c x = s.getBelow? (c - 1) x := by
  cases c <;> simp [getBelow?, frames_push]

theorem getBelow?_pop {s : Scopes} (h : 1 < s.depth) (c : Nat) (x : String) :
    s.pop.getBelow? c x = s.getBelow? (c + 1) x := by
  rw [getBelow?, getBelow?, frames_pop h, frames_eq s, List.drop_succ_cons]

theorem getBelow?_bind (s : Scopes) (c : Nat) (x y : String) (v : Value) :
    (s.bind x v).getBelow? c y = if c = 0 ∧ x = y then some v else s.getBelow? c y := by
  cases c with
  | zero => simp [getBelow?_zero, get?_bind]
  | succ c => simp [getBelow?, frames_bind, frames_eq s]

/-- A write that is the last operation is the latest write. -/
theorem latest_concat_set_iff {actions : List Action} {x : String} {v w : Value} {t : Scopes}
    (ht : (after l actions).assign x w = .ok t) :
    Latest l (actions ++ [.set x w]) 0 x v ↔ w = v := by
  have hlast : WriteBelow l (actions ++ [.set x w]) x w [] 0 :=
    writeBelow_concat_iff.mpr (Or.inl ⟨rfl, rfl, rfl, t, ht⟩)
  constructor
  · rintro ⟨since, n, -, hwrite, hlatest⟩
    have hle : since.length ≤ 0 := hlatest w [] 0 (Nat.le_refl 0) hlast
    have hnil : since = [] := List.eq_nil_of_length_eq_zero (Nat.le_zero.mp hle)
    rcases writeBelow_concat_iff.mp hwrite with ⟨-, -, ha, -⟩ | ⟨since', -, hsince, -⟩
    · cases ha
      rfl
    · simp [hnil] at hsince
  · rintro rfl
    exact ⟨[], 0, Nat.le_refl 0, hlast, fun _ _ _ _ _ => Nat.zero_le _⟩

/-- **What is visible is the latest live write**, also with innermost frames left out. -/
theorem getBelow?_eq_some_iff {actions : List Action} (hlegal : Legal l actions) {c : Nat}
    {x : String} {v : Value} :
    (after l actions).getBelow? c x = some v ↔ Latest l actions c x v := by
  induction actions using List.reverseRecOn generalizing c with
  | nil =>
    have hnone : (after l []).getBelow? c x = none := getBelow?_empty c x
    rw [hnone]
    simp [Latest, WriteBelow]
  | append_singleton actions a ih =>
    have ih := fun c => ih (c := c) hlegal.of_concat
    rw [after_concat]
    cases a with
    | push =>
      rw [act, getBelow?_push, ih]
      refine (latest_concat_iff (fun n' => ?_) (fun _ w t ha => ?_)).symm
      · simp [Action.above]
      · cases ha
    | pop =>
      rw [act, getBelow?_pop hlegal.depth_of_pop, ih]
      refine (latest_concat_iff (fun n' => ?_) (fun _ w t ha => ?_)).symm
      · cases n' <;> simp [Action.above]
      · cases ha
    | set y w =>
      rcases ht : (after l actions).assign y w with f | t
      · -- a refused assignment changes nothing, and is no write
        have hact : (after l actions).act (.set y w) = after l actions := by
          rw [act, ht]
          rfl
        rw [hact, ih]
        refine (latest_concat_iff (fun n' => ?_) (fun _ w' t ha => ?_)).symm
        · simp [Action.above]
        · cases ha
          simp [ht]
      · obtain ⟨rfl, -⟩ := assign_eq_ok_iff.mp ht
        have hact : (after l actions).act (.set y w) = (after l actions).bind y w := by
          rw [act, ht]
          rfl
        rw [hact, getBelow?_bind]
        by_cases hhit : c = 0 ∧ y = x
        · obtain ⟨rfl, rfl⟩ := hhit
          rw [if_pos ⟨rfl, rfl⟩, Option.some_inj, latest_concat_set_iff ht]
        · rw [if_neg hhit, ih]
          refine (latest_concat_iff (fun n' => ?_) (fun hc w' t ha => ?_)).symm
          · simp [Action.above]
          · cases ha
            exact absurd ⟨hc, rfl⟩ hhit
    | reset =>
      have hnone : (after l actions).reset.getBelow? c x = none := getBelow?_empty c x
      rw [act, hnone]
      simp [Latest, writeBelow_concat_iff, Action.above]

/-- Where there is a live write, there is a latest one. -/
theorem exists_latest {actions : List Action} {x : String} {v : Value} {since : List Action}
    (h : LiveWrite l actions x v since) : ∃ w, Latest l actions 0 x w := by
  classical
  have hsome : ∃ k w since n, WriteBelow l actions x w since n ∧ since.length = k := by
    obtain ⟨n, hwrite⟩ := h
    exact ⟨_, v, since, n, hwrite, rfl⟩
  obtain ⟨w, since, n, hwrite, hlength⟩ := Nat.find_spec hsome
  refine ⟨w, since, n, Nat.zero_le n, hwrite, fun w' since' n' _ hwrite' => ?_⟩
  rw [hlength]
  exact Nat.find_min' hsome ⟨w', since', n', hwrite', rfl⟩

/-! ## Names and global bindings -/

/-- The global bindings are in the order of the bytes of their names. -/
theorem globals_ordered (s : Scopes) :
    s.globals.Pairwise fun a b => Text.encode a.1 < Text.encode b.1 := by
  rw [globals_eq]
  refine Std.TreeMap.ordered_keys_toList.imp fun {a b} h => ?_
  exact Text.encode_lt_encode (compareOfLessAndEq_eq_lt.mp h)

/-- No name has two global bindings. -/
theorem globals_nodup (s : Scopes) : (s.globals.map Prod.fst).Nodup := by
  refine List.pairwise_map.mpr (s.globals_ordered.imp fun {a b} hlt heq => ?_)
  rw [heq] at hlt
  exact List.lt_irrefl _ hlt

/-- **Latest live write.** A name has the value of the latest assignment that succeeded and
whose frame is still live, and no value if there is none. A name that is bound in some frame is
one that has a value, and one of the names of the frames. The global bindings are listed in the
order of the bytes of their names, each name once. -/
theorem get?_latest_live_write {actions : List Action} (hlegal : Legal l actions) :
    (∀ x v, (after l actions).get? x = some v ↔ ∃ since, LiveWrite l actions x v since ∧
      ∀ w since', LiveWrite l actions x w since' → since.length ≤ since'.length) ∧
    (∀ x, (after l actions).get? x = none ↔ ∀ v since, ¬ LiveWrite l actions x v since) ∧
    (∀ x, ((after l actions).contains x = true ↔ ∃ v, (after l actions).get? x = some v) ∧
      ((after l actions).contains x = true ↔ x ∈ (after l actions).names)) ∧
    (∀ x v, (x, v) ∈ (after l actions).globals ↔ (after l actions).global[x]? = some v) ∧
    ((after l actions).globals.map Prod.fst).Nodup ∧
    (after l actions).globals.Pairwise fun a b => Text.encode a.1 < Text.encode b.1 := by
  have hlatest (x : String) (v : Value) :
      (after l actions).get? x = some v ↔ Latest l actions 0 x v := by
    rw [← getBelow?_zero, getBelow?_eq_some_iff hlegal]
  refine ⟨fun x v => ?_, fun x => ?_, fun x => ⟨contains_iff, ?_⟩, fun x v => ?_,
    globals_nodup _, globals_ordered _⟩
  · rw [hlatest]
    constructor
    · rintro ⟨since, n, -, hwrite, hmin⟩
      refine ⟨since, ⟨n, hwrite⟩, ?_⟩
      rintro w since' ⟨n', hwrite'⟩
      exact hmin w since' n' (Nat.zero_le n') hwrite'
    · rintro ⟨since, ⟨n, hwrite⟩, hmin⟩
      exact ⟨since, n, Nat.zero_le n, hwrite, fun w since' n' _ hwrite' =>
        hmin w since' ⟨n', hwrite'⟩⟩
  · rw [Option.eq_none_iff_forall_ne_some]
    constructor
    · intro hnone v since hlive
      obtain ⟨w, hw⟩ := exists_latest hlive
      exact hnone w ((hlatest x w).mpr hw)
    · intro hnone v hv
      obtain ⟨since, n, -, hwrite, -⟩ := (hlatest x v).mp hv
      exact hnone v since ⟨n, hwrite⟩
  · rw [contains_iff, mem_names_iff]
  · rw [globals_eq]
    exact Std.TreeMap.mem_toList_iff_getElem?_eq_some

/-- A write in a frame that is gone and a write that was refused do not count. -/
theorem get?_latest_live_write_shadowed :
    ∃ actions : List Action,
      actions = [.set "x" (.int 1), .push, .set "x" (.int 2), .set "x" (.str "a"), .pop] ∧
      Legal .byName actions ∧ (after .byName actions).get? "x" = some (.int 1) ∧
      ∃ since, LiveWrite .byName actions "x" (.int 1) since ∧
        ∀ w since', LiveWrite .byName actions "x" w since' → since.length ≤ since'.length := by
  have hlegal : Legal .byName
      [.set "x" (.int 1), .push, .set "x" (.int 2), .set "x" (.str "a"), .pop] := by
    intro before since h
    simp [List.cons_eq_append_iff] at h
    obtain ⟨rfl, -⟩ := h
    decide
  have hget : (after .byName [.set "x" (.int 1), .push, .set "x" (.int 2), .set "x" (.str "a"),
      .pop]).get? "x" = some (.int 1) := rfl
  exact ⟨_, rfl, hlegal, hget, ((get?_latest_live_write hlegal).1 "x" _).mp hget⟩

end Scopes

end Scriptling

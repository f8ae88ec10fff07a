import Scriptling.Proofs.Interpreter.Scopes
import Scriptling.Proofs.Interpreter.Session

/-!
# Variables keep their kind

An assignment compares kinds with the visible value of the name only, which is that of the
innermost frame that binds it. That this is enough for all live frames is an invariant: any
two frames that bind a name bind it to values of one kind (`Scopes.KindLocked`). It holds
after any sequence of operations on scopes (`Scopes.kindLocked_after`).

The scopes themselves would take booleans. It is the machine that never stores one
(`Scopes.NoBool`): an assignment checks its value before, and a loop stores integers only.
-/

namespace Scriptling

namespace Scopes

/-! ## Operations in sequence -/

/-- The operations that change scopes. -/
inductive Action
  /-- a new innermost frame -/
  | push
  /-- without the innermost frame -/
  | pop
  /-- an assignment -/
  | set (x : String) (v : Value)
  /-- a fresh start -/
  | reset

/-- The scopes after an operation. An assignment that is refused is as if it had not been
tried, and the global frame stays. -/
def act (s : Scopes) : Action → Scopes
  | .push => s.push
  | .pop => s.pop
  | .set x v => (s.assign x v).toOption.getD s
  | .reset => s.reset

/-- The scopes after operations in order, from the very start. -/
def after (l : Listing) (actions : List Action) : Scopes :=
  actions.foldl act (.empty l)

variable {l : Listing}

/-- What holds at the start and is kept by every operation holds after all of them. -/
theorem after_induction {P : Scopes → Prop} (hempty : ∀ l, P (.empty l))
    (hact : ∀ s a, P s → P (s.act a)) (l : Listing) (actions : List Action) :
    P (after l actions) := by
  suffices h : ∀ s, P s → P (actions.foldl act s) from h _ (hempty l)
  intro s hs
  induction actions generalizing s with
  | nil => exact hs
  | cons a actions ih => exact ih _ (hact s a hs)

/-! ## One kind for each name -/

/-- Live frames that bind the same name bind it to values of the same kind. -/
def KindLocked (s : Scopes) : Prop :=
  ∀ (x : String) (v w : Value), s.Binds x v → s.Binds x w → v.kind = w.kind

namespace KindLocked

theorem empty (l : Listing) : KindLocked (.empty l) :=
  fun x v _ hv _ => absurd hv (not_binds_empty l x v)

theorem push {s : Scopes} (h : s.KindLocked) : s.push.KindLocked :=
  fun x v w hv hw => h x v w hv.of_push hw.of_push

theorem pop {s : Scopes} (h : s.KindLocked) : s.pop.KindLocked :=
  fun x v w hv hw => h x v w hv.of_pop hw.of_pop

/-- A name that is not visible with another kind can be bound: what is visible stands for
all bindings of the name. -/
theorem bind {s : Scopes} (h : s.KindLocked) {x : String} {v : Value}
    (hkind : ∀ w, s.get? x = some w → w.kind = v.kind) : (s.bind x v).KindLocked := by
  have hold : ∀ w, s.Binds x w → w.kind = v.kind := by
    -- a hidden binding has the kind of the visible one, and that has the kind of `v`
    intro w hw
    obtain ⟨u, hu⟩ := hw.exists_get?
    exact (h x w u hw (binds_of_get? hu)).trans (hkind u hu)
  intro y w w' hw hw'
  -- each of the two bindings may be the new one
  obtain ⟨rfl, rfl⟩ | hw := hw.of_bind
  · obtain ⟨-, rfl⟩ | hw' := hw'.of_bind
    · rfl
    · exact (hold w' hw').symm
  · obtain ⟨rfl, rfl⟩ | hw' := hw'.of_bind
    · exact hold w hw
    · exact h y w w' hw hw'

/-- Every operation keeps one kind for each name. -/
theorem act {s : Scopes} (h : s.KindLocked) (a : Action) : (s.act a).KindLocked := by
  cases a with
  | push => exact h.push
  | pop => exact h.pop
  | reset => exact .empty s.listing
  | set x v =>
    rw [Scopes.act]
    rcases ht : s.assign x v with f | t
    · -- refused, so nothing was changed
      exact h
    · obtain ⟨rfl, hkind⟩ := assign_eq_ok_iff.mp ht
      exact h.bind hkind

/-- An assignment is refused exactly if some live frame binds the name to another kind. -/
theorem assign_refused_iff {s : Scopes} (h : s.KindLocked) {x : String} {v : Value} :
    (∃ old, s.assign x v = .error (.typeConflict x old v.kind)) ↔
      ∃ w, s.Binds x w ∧ w.kind ≠ v.kind := by
  constructor
  · rintro ⟨old, herror⟩
    obtain ⟨w, hw, hne, -⟩ := assign_eq_error_iff.mp herror
    exact ⟨w, binds_of_get? hw, hne⟩
  · rintro ⟨w, hw, hne⟩
    obtain ⟨u, hu⟩ := hw.exists_get?
    have huw : u.kind = w.kind := h x u w (binds_of_get? hu) hw
    exact ⟨u.kind, assign_eq_error_iff.mpr ⟨u, hu, huw ▸ hne, rfl⟩⟩

end KindLocked

/-- **One kind for each name** after any operations. -/
theorem kindLocked_after (l : Listing) (actions : List Action) : (after l actions).KindLocked :=
  after_induction .empty (fun _ a h => h.act a) l actions

/-! ## No booleans -/

/-- No live frame binds a name to a boolean. -/
def NoBool (s : Scopes) : Prop :=
  ∀ (x : String) (b : Bool), ¬ s.Binds x (.bool b)

namespace NoBool

theorem empty (l : Listing) : NoBool (.empty l) :=
  fun x b => not_binds_empty l x (.bool b)

theorem push {s : Scopes} (h : s.NoBool) : s.push.NoBool :=
  fun x b hb => h x b hb.of_push

theorem pop {s : Scopes} (h : s.NoBool) : s.pop.NoBool :=
  fun x b hb => h x b hb.of_pop

theorem assign {s t : Scopes} (h : s.NoBool) {x : String} {v : Value}
    (hv : v.storable = true) (ht : s.assign x v = .ok t) : t.NoBool := by
  obtain ⟨rfl, -⟩ := assign_eq_ok_iff.mp ht
  intro y b hb
  obtain ⟨-, rfl⟩ | hb := hb.of_bind
  · -- a boolean cannot be stored
    cases hv
  · exact h y b hb

end NoBool

end Scopes

/-- A store that fails leaves the machine as it was. -/
theorem Exec.eq_of_store_error {ι ο : Type} {x : String} {v : Value} {m m' : Machine ι ο}
    {e : RunError} (h : (Exec.store x v).run m = (.error e, m')) : m' = m := by
  simp only [Exec.store, ExceptT.run_mk] at h
  split at h
  · cases h
  · exact (Prod.mk.inj h).2.symm

section

variable {ι ο : Type} [LineSource ι] [LineSink ο]

/-- That no boolean comes in is a law of execution. -/
theorem Scopes.noBool_law :
    Exec.Law fun _ (m m' : Machine ι ο) => m.scopes.NoBool → m'.scopes.NoBool :=
  .ofScopes (S := fun _ s t => s.NoBool → t.NoBool) (fun _ _ h => h)
    (fun _ _ _ _ h₁ h₂ h => h₂ (h₁ h)) (fun _ hv ht h => h.assign hv ht)
    (fun hframe h => (hframe h.push).pop)

theorem Machine.session_noBool (calls : List Call) (m : Machine ι ο) (hm : m.scopes.NoBool) :
    (m.session calls).scopes.NoBool := by
  induction calls generalizing m with
  | nil => exact hm
  | cons c calls ih =>
    rw [session_cons]
    by_cases hc : c = .reset
    · subst hc
      exact ih m.reset (.empty m.scopes.listing)
    · obtain ⟨-, hcall⟩ := Scopes.noBool_law.call m hc
      exact ih (m.call c) (hcall hm)

/-- **Type lock.** After any operations on scopes, live frames that bind the same name bind
it to values of one kind. So an assignment is refused exactly if some live frame binds the
name to another kind, and then nothing is changed. After any session of a machine, no frame
holds a boolean. -/
theorem Scopes.type_lock :
    (∀ (l : Listing) (actions : List Action), (after l actions).KindLocked ∧
      ∀ (x : String) (v : Value),
        ((∃ old, (after l actions).assign x v = .error (.typeConflict x old v.kind)) ↔
          ∃ w, (after l actions).Binds x w ∧ w.kind ≠ v.kind) ∧
        ((∃ w, (after l actions).Binds x w ∧ w.kind ≠ v.kind) →
          (after l actions).act (.set x v) = after l actions)) ∧
    (∀ (x : String) (v : Value) (m m' : Machine ι ο) (e : RunError),
      (Exec.store x v).run m = (.error e, m') → m' = m) ∧
    ∀ (calls : List Call) (input : ι) (output : ο) (l : Listing),
      ((Machine.start input output l).session calls).scopes.NoBool := by
  refine ⟨fun l actions => ⟨kindLocked_after l actions, fun x v => ?_⟩, fun _ _ _ _ _ => ?_,
    fun calls input output l => ?_⟩
  · have hrefused := (kindLocked_after l actions).assign_refused_iff (x := x) (v := v)
    refine ⟨hrefused, fun hw => ?_⟩
    obtain ⟨old, herror⟩ := hrefused.mpr hw
    rw [act, herror]
    rfl
  · exact Exec.eq_of_store_error
  · exact Machine.session_noBool calls _ (.empty l)

end

/-- A name bound in two frames: both bindings are of one kind, and a string is refused. -/
theorem Scopes.type_lock_hidden :
    ∃ (actions : List Action) (m m' : Machine (List String) LineBuffer) (e : RunError),
      actions = [.set "x" (.int 1), .push, .set "x" (.int 2)] ∧ m.scopes = after .byName actions ∧
      (after .byName actions).Binds "x" (.int 1) ∧ (after .byName actions).Binds "x" (.int 2) ∧
      (Value.int 1).kind = (Value.int 2).kind ∧
      (∃ old, (after .byName actions).assign "x" (.str "a") = .error (.typeConflict "x" old .str)) ∧
      (after .byName actions).act (.set "x" (.str "a")) = after .byName actions ∧
      (Exec.store "x" (.str "a")).run m = (.error e, m') ∧ m' = m := by
  let actions : List Action := [.set "x" (.int 1), .push, .set "x" (.int 2)]
  let m : Machine (List String) LineBuffer := ⟨after .byName actions, [], .empty⟩
  have hlock := (@type_lock (List String) LineBuffer _ _).1 .byName actions
  have houter : (after .byName actions).Binds "x" (.int 1) :=
    ⟨(∅ : Frame).insert "x" (.int 1), List.mem_cons_of_mem _ List.mem_cons_self, by simp⟩
  have hinner : (after .byName actions).Binds "x" (.int 2) :=
    ⟨(∅ : Frame).insert "x" (.int 2), List.mem_cons_self, by simp⟩
  have hother : ∃ w, (after .byName actions).Binds "x" w ∧ w.kind ≠ (Value.str "a").kind :=
    ⟨.int 1, houter, by decide⟩
  have hstore : (Exec.store "x" (.str "a")).run m =
      (.error ⟨.typeConflict "x" .int .str, none⟩, m) := rfl
  exact ⟨actions, m, m, _, rfl, rfl, houter, hinner, hlock.1 "x" _ _ houter hinner,
    (hlock.2 "x" (.str "a")).1.mpr hother, (hlock.2 "x" (.str "a")).2 hother, hstore,
    type_lock.2.1 _ _ _ _ _ hstore⟩

end Scriptling

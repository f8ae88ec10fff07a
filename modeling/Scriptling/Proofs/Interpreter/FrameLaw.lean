import Scriptling.Proofs.Interpreter.Scopes
import Scriptling.Proofs.Interpreter.Session

/-!
# The frame law of execution

A statement works on the innermost frame alone. Whatever way its execution ends, the frames
around the innermost one are untouched, the innermost one has lost no name and changed no
kind, and it is unchanged on the names that the statement does not write
(`Scopes.Framed`).

A block runs in a frame of its own, and by the law for its body that frame is all that the
body changed. So taking it away brings back the scopes as they were, and there is always a
frame to take away.
-/

namespace Scriptling

/-- Every name that `f` binds is bound by `g` too, to a value of the same kind. -/
def Frame.Continues (f g : Frame) : Prop :=
  ∀ (x : String) (v : Value), f[x]? = some v → ∃ w : Value, g[x]? = some w ∧ w.kind = v.kind

theorem Frame.Continues.refl (f : Frame) : f.Continues f :=
  fun _ v hv => ⟨v, hv, rfl⟩

theorem Frame.Continues.trans {f g h : Frame} (hfg : f.Continues g) (hgh : g.Continues h) :
    f.Continues h := by
  intro x v hv
  obtain ⟨w, hw, hwv⟩ := hfg x v hv
  obtain ⟨w', hw', hww⟩ := hgh x w hw
  exact ⟨w', hw', hww.trans hwv⟩

namespace Scopes

/-- From `s` to `t` only the innermost frame changed. It still binds what it bound, to
values of the same kinds, and outside of `X` to the same values. -/
structure Framed (X : List String) (s t : Scopes) : Prop where
  /-- the frames around the innermost one are the same -/
  outer : t.outer = s.outer
  /-- frames are listed in the same order -/
  listing : t.listing = s.listing
  /-- no name of the innermost frame is lost, and none changes its kind -/
  kept : s.innermost.Continues t.innermost
  /-- the innermost frame is the same on the names outside of `X` -/
  unchanged : ∀ x, x ∉ X → t.innermost[x]? = s.innermost[x]?

namespace Framed

variable {X Y : List String} {s t u : Scopes}

theorem refl (X : List String) (s : Scopes) : Framed X s s :=
  ⟨rfl, rfl, .refl _, fun _ _ => rfl⟩

theorem trans (h₁ : Framed X s t) (h₂ : Framed X t u) : Framed X s u where
  outer := h₂.outer.trans h₁.outer
  listing := h₂.listing.trans h₁.listing
  kept := h₁.kept.trans h₂.kept
  unchanged x hx := (h₂.unchanged x hx).trans (h₁.unchanged x hx)

theorem depth (h : Framed X s t) : t.depth = s.depth := by
  rw [depth_eq, depth_eq, frames_eq, frames_eq, h.outer, List.length_cons, List.length_cons]

/-- An assignment keeps the kind of the name because the innermost frame is asked first. -/
theorem assign {x : String} {v : Value} (hx : x ∈ X) (h : s.assign x v = .ok t) :
    Framed X s t := by
  obtain ⟨rfl, hkind⟩ := assign_eq_ok_iff.mp h
  refine ⟨outer_bind s x v, listing_bind s x v, fun y w hw => ?_, fun y hy => ?_⟩
  · rw [innermost_bind, Frame.getElem?_insert]
    by_cases hxy : x = y
    · subst hxy
      exact ⟨v, if_pos rfl, (hkind w (get?_of_innermost hw)).symm⟩
    · exact ⟨w, by rw [if_neg hxy, hw], rfl⟩
  · have hxy : x ≠ y := fun hxy => hy (hxy ▸ hx)
    rw [innermost_bind, Frame.getElem?_insert, if_neg hxy]

/-- What was done in a new frame goes away with it. -/
theorem pop? (h : Framed Y s.push t) : t.pop? = some s :=
  pop?_of_outer (h.outer.trans (outer_push s)) h.listing

theorem pop (h : Framed Y s.push t) : t.pop = s :=
  pop_of_outer (h.outer.trans (outer_push s)) h.listing

/-- If the global frame is the only one, the law is about it. -/
theorem global (h : Framed X s t) (hs : s.depth = 1) : s.global.Continues t.global := by
  have ht : t.depth = 1 := h.depth.trans hs
  obtain ⟨locals, global, listing⟩ := s
  obtain ⟨locals', global', listing'⟩ := t
  obtain rfl : locals = [] := List.eq_nil_of_length_eq_zero (Nat.succ.inj hs)
  obtain rfl : locals' = [] := List.eq_nil_of_length_eq_zero (Nat.succ.inj ht)
  exact h.kept

end Framed

end Scopes

section

variable {ι ο : Type} [LineSource ι] [LineSink ο]

/-- The frame law is a law of execution. -/
theorem Scopes.framed_law :
    Exec.Law fun X (m m' : Machine ι ο) => m.scopes.Framed X m'.scopes :=
  .ofScopes Framed.refl (fun _ _ _ _ => Framed.trans) (fun hx _ => Framed.assign hx)
    (fun h => by rw [h.pop]; exact Framed.refl _ _)

/-- A session keeps a single frame single, and without a reset the global frame keeps its
names and their kinds. -/
theorem Machine.session_global (calls : List Call) (m : Machine ι ο)
    (hm : m.scopes.depth = 1) :
    (m.session calls).scopes.depth = 1 ∧
      (Call.reset ∉ calls → m.scopes.global.Continues (m.session calls).scopes.global) := by
  induction calls generalizing m with
  | nil => exact ⟨hm, fun _ => .refl _⟩
  | cons c calls ih =>
    rw [session_cons]
    by_cases hc : c = .reset
    · -- after a reset only the single frame is left to be promised
      subst hc
      refine ⟨(ih m.reset rfl).1, fun hreset => ?_⟩
      exact absurd List.mem_cons_self hreset
    · obtain ⟨X, hframed⟩ := Scopes.framed_law.call m hc
      obtain ⟨hdepth, hrest⟩ := ih (m.call c) (hframed.depth.trans hm)
      refine ⟨hdepth, fun hreset => ?_⟩
      exact (hframed.global hm).trans (hrest fun h => hreset (List.mem_cons_of_mem c h))

/-- **Frame law.** Executing a statement keeps the number of frames and all frames but the
innermost one; that one keeps its names and their kinds, and its values outside of what the
statement writes. A block keeps all scopes, and when its body is done there is a frame to
take away. A session on a single frame ends with a single frame, and without a reset no
global name is lost or changes its kind. -/
theorem exec_frame_law :
    (∀ (s : Stmt) (m : Machine ι ο),
      ((exec s).run m).2.scopes.depth = m.scopes.depth ∧
      ((exec s).run m).2.scopes.outer = m.scopes.outer ∧
      m.scopes.innermost.Continues ((exec s).run m).2.scopes.innermost ∧
      ∀ x, x ∉ s.writes → ((exec s).run m).2.scopes.innermost[x]? = m.scopes.innermost[x]?) ∧
    (∀ (span : Span) (body : List Stmt) (m : Machine ι ο),
      ((exec (.block span body)).run m).2.scopes = m.scopes ∧
      ((execAll body).run { m with scopes := m.scopes.push }).2.scopes.pop? = some m.scopes) ∧
    ∀ (calls : List Call) (m : Machine ι ο), m.scopes.depth = 1 →
      (m.session calls).scopes.depth = 1 ∧
      (Call.reset ∉ calls → m.scopes.global.Continues (m.session calls).scopes.global) := by
  refine ⟨fun s m => ?_, fun span body m => ?_, fun calls m hm => ?_⟩
  · have h := Scopes.framed_law.exec s (List.Subset.refl _) m
    exact ⟨h.depth, h.outer, h.kept, h.unchanged⟩
  · have h := Scopes.framed_law.execAll body (List.Subset.refl _)
      { m with scopes := m.scopes.push }
    rw [exec_block]
    exact ⟨h.pop, h.pop?⟩
  · exact m.session_global calls hm

end

/-- A run that assigns and then fails at a stray `break` keeps the global name. -/
theorem exec_frame_law_strayBreak :
    ∃ m : Machine (List String) LineBuffer,
      m.scopes = ⟨[], (∅ : Frame).insert "x" (.int 1), .byName⟩ ∧ m.scopes.depth = 1 ∧
      ∃ calls : List Call,
        calls = [.run ⟨[.assign ⟨0, 6⟩ "x" (.int ⟨5, 6⟩ 2), .break_ ⟨8, 13⟩]⟩] ∧
        (m.session calls).scopes.depth = 1 ∧
        ∃ w, (m.session calls).scopes.global["x"]? = some w ∧ w.kind = .int := by
  refine ⟨⟨⟨[], (∅ : Frame).insert "x" (.int 1), .byName⟩, [], .empty⟩, rfl, rfl, _, rfl, ?_⟩
  obtain ⟨hdepth, hkept⟩ := exec_frame_law.2.2
    [.run ⟨[.assign ⟨0, 6⟩ "x" (.int ⟨5, 6⟩ 2), .break_ ⟨8, 13⟩]⟩]
    (⟨⟨[], (∅ : Frame).insert "x" (.int 1), .byName⟩, [], .empty⟩ :
      Machine (List String) LineBuffer) rfl
  exact ⟨hdepth, hkept (by simp) "x" (.int 1) (by simp)⟩

end Scriptling

import Mathlib.Data.List.Forall2
import Scriptling.Interpreter.Eval
import Scriptling.Proofs.Interpreter.Scopes
import Scriptling.Proofs.Text.EditTable

/-!
# Hints for unknown names

The search for a suggestion goes through the candidates once and keeps the best one so far. What it
has after some of them is said by `Suggestion.Best`: nothing if all of them are out of reach, and
otherwise the first of those at the least distance (`Suggestion.IsFirstNearest`). One candidate more
keeps this (`Suggestion.Best.better`), and so the search ends with the first of the nearest
candidates (`Suggestion.nearest?_eq_some_iff`).

The candidates for an unknown variable are the names of all frames, the innermost frame first. In
which order the names of one frame come makes no difference to what is shown here: `Scopes.Listed`
says no more than which names a row has, and `Scopes.Hints` what then holds of the hint.

Main statement: an unknown variable is reported with a nearest visible name (`eval_var_hint`).
-/

namespace Scriptling

namespace Suggestion

/-! ## The search -/

/-- How many edits a candidate is away from a name. -/
def away (name candidate : String) : Nat :=
  Text.distance name.toList candidate.toList

/-- Of the candidates at the least distance, which is within the limit, this is the first one. -/
def IsFirstNearest (name : String) (limit : Nat) (candidates : List String) (c : String) : Prop :=
  ∃ before behind, candidates = before ++ c :: behind ∧ away name c ≤ limit ∧
    (∀ d ∈ before, away name c < away name d) ∧ ∀ d ∈ behind, away name c ≤ away name d

/-- What is kept of the candidates that were seen. -/
inductive Best (name : String) (seen : List String) : Option (Nat × String) → Prop
  /-- none of them is near enough -/
  | none : (∀ d ∈ seen, reach name < away name d) → Best name seen none
  /-- the first of the nearest ones, with its distance -/
  | some {c : String} : IsFirstNearest name (reach name) seen c →
      Best name seen (some (away name c, c))

section

variable {name c d : String} {limit : Nat} {seen candidates : List String}
  {best : Option (Nat × String)}

theorem IsFirstNearest.away_le (h : IsFirstNearest name limit candidates c) :
    away name c ≤ limit := by
  obtain ⟨_, _, _, hlimit, _, _⟩ := h
  exact hlimit

theorem IsFirstNearest.mem (h : IsFirstNearest name limit candidates c) : c ∈ candidates := by
  obtain ⟨before, behind, rfl, _⟩ := h
  simp

/-- No candidate is nearer. -/
theorem IsFirstNearest.away_le_away (h : IsFirstNearest name limit candidates c)
    (hd : d ∈ candidates) : away name c ≤ away name d := by
  obtain ⟨before, behind, rfl, -, hbefore, hbehind⟩ := h
  rcases List.mem_append.mp hd with hd | hd
  · exact (hbefore d hd).le
  rcases List.mem_cons.mp hd with rfl | hd
  · exact le_rfl
  · exact hbehind d hd

/-- A nearest candidate stays the first one if what comes behind is not nearer. -/
theorem IsFirstNearest.concat (h : IsFirstNearest name limit seen c)
    (hd : away name c ≤ away name d) : IsFirstNearest name limit (seen ++ [d]) c := by
  obtain ⟨before, behind, rfl, hlimit, hbefore, hbehind⟩ := h
  refine ⟨before, behind ++ [d], by simp, hlimit, hbefore, ?_⟩
  intro e he
  rcases List.mem_append.mp he with he | he
  · exact hbehind e he
  · rwa [List.mem_singleton.mp he]

/-- A candidate that is nearer than all before is the first of the nearest ones. -/
theorem isFirstNearest_concat (hlimit : away name d ≤ limit)
    (hseen : ∀ e ∈ seen, away name d < away name e) : IsFirstNearest name limit (seen ++ [d]) d :=
  ⟨seen, [], rfl, hlimit, hseen, by simp⟩

/-- There is one first. -/
theorem IsFirstNearest.unique (h : IsFirstNearest name limit candidates c)
    (h' : IsFirstNearest name limit candidates d) : c = d := by
  have hle := h.away_le_away h'.mem
  have hle' := h'.away_le_away h.mem
  obtain ⟨before, behind, rfl, -, hbefore, -⟩ := h
  obtain ⟨before', behind', heq, -, hbefore', -⟩ := h'
  -- neither of them is in front of the other
  rcases List.append_eq_append_iff.mp heq with ⟨between, rfl, hrest⟩ | ⟨between, rfl, hrest⟩ <;>
    rcases between with _ | ⟨e, between⟩
  · exact (List.cons.inj hrest).1
  · obtain rfl := (List.cons.inj hrest).1
    have hlt := hbefore' c (by simp)
    omega
  · exact (List.cons.inj hrest).1.symm
  · obtain rfl := (List.cons.inj hrest).1
    have hlt := hbefore d (by simp)
    omega

/-- **One candidate more.** -/
theorem Best.better (h : Best name seen best) (d : String) :
    Best name (seen ++ [d]) (better name best d) := by
  have hdistance : Text.editDistance name d = away name d := Text.editDistance_eq name d
  simp only [Suggestion.better.eq_def, hdistance]
  split_ifs with hd
  · cases h with
    | none hseen =>
      refine .some (isFirstNearest_concat hd fun e he => ?_)
      exact hd.trans_lt (hseen e he)
    | @some c hc =>
      by_cases hlt : away name d < away name c
      · simp only [if_pos hlt]
        refine .some (isFirstNearest_concat hd fun e he => ?_)
        exact hlt.trans_le (hc.away_le_away he)
      · -- the earlier one is kept
        simp only [if_neg hlt]
        exact .some (hc.concat (not_lt.mp hlt))
  · cases h with
    | none hseen =>
      refine .none fun e he => ?_
      rcases List.mem_append.mp he with he | he
      · exact hseen e he
      · rw [List.mem_singleton.mp he]
        exact not_le.mp hd
    | some hc =>
      have hle := hc.away_le
      exact .some (hc.concat (by omega))

/-- All candidates. -/
theorem Best.foldl (h : Best name seen best) (candidates : List String) :
    Best name (seen ++ candidates) (candidates.foldl (Suggestion.better name) best) := by
  induction candidates generalizing seen best with
  | nil => simpa using h
  | cons d candidates ih => simpa using ih (h.better d)

theorem best_foldl (name : String) (candidates : List String) :
    Best name candidates (candidates.foldl (better name) none) := by
  have hnone : Best name [] none := .none (by simp)
  simpa using hnone.foldl candidates

/-- Nothing is suggested if all candidates are out of reach. -/
theorem nearest?_eq_none_iff :
    nearest? name candidates = none ↔ ∀ d ∈ candidates, reach name < away name d := by
  have hbest := best_foldl name candidates
  rw [nearest?]
  generalize candidates.foldl (better name) none = best at hbest ⊢
  cases hbest with
  | none h => simpa using h
  | @some c h =>
    have hnot : ¬ ∀ d ∈ candidates, reach name < away name d := by
      intro hall
      exact absurd h.away_le (not_le.mpr (hall c h.mem))
    simpa using hnot

/-- **The first of the nearest candidates is suggested**, if they are near enough. -/
theorem nearest?_eq_some_iff :
    nearest? name candidates = some c ↔ IsFirstNearest name (reach name) candidates c := by
  have hbest := best_foldl name candidates
  rw [nearest?]
  generalize candidates.foldl (better name) none = best at hbest ⊢
  cases hbest with
  | none h =>
    have hnot : ¬ IsFirstNearest name (reach name) candidates c := by
      intro hc
      exact absurd hc.away_le (not_le.mpr (h c hc.mem))
    simpa using hnot
  | @some d h =>
    constructor
    · intro heq
      obtain rfl : d = c := by simpa using heq
      exact h
    · intro hc
      simp [h.unique hc]

end

end Suggestion

open Suggestion (away reach nearest? IsFirstNearest)

namespace Scopes

/-! ## Candidates in frames -/

variable {s : Scopes} {rows : List (List String)} {name c : String}

/-- Each row has the names of a frame, the innermost first, in any order. -/
def Listed (s : Scopes) (rows : List (List String)) : Prop :=
  List.Forall₂ (fun f row => ∀ x, x ∈ row ↔ x ∈ f) s.frames rows

/-- The name is visible. -/
def Visible (s : Scopes) (x : String) : Prop :=
  ∃ v, s.get? x = some v

theorem visible_iff {x : String} : s.Visible x ↔ ∃ f ∈ s.frames, x ∈ f := by
  rw [Visible, ← mem_names_iff, names, Listing.mem_flatten_rows_iff]

theorem listed_rows (s : Scopes) : s.Listed (s.listing.rows s.frames) := by
  rw [Listed]
  induction s.frames with
  | nil => exact .nil
  | cons f outer ih => exact .cons (fun _ => Listing.mem_keys_iff) ih

/-- The rows have the visible names. -/
theorem Listed.mem_flatten_iff (h : s.Listed rows) (x : String) :
    x ∈ rows.flatten ↔ s.Visible x := by
  rw [visible_iff]
  rw [Listed] at h
  generalize s.frames = frames at h ⊢
  induction h with
  | nil => simp
  | cons hrow _ ih => simp [hrow, ih]

/-- What comes in front of a candidate are all names of the frames inside its own one. -/
theorem exists_frame {frames : List Frame} {before behind : List String} {p : String → Prop}
    (h : List.Forall₂ (fun f row => ∀ x, x ∈ row ↔ x ∈ f) frames rows)
    (hrows : rows.flatten = before ++ c :: behind) (hbefore : ∀ d ∈ before, p d) :
    ∃ inner f outer, frames = inner ++ f :: outer ∧ c ∈ f ∧ ∀ g ∈ inner, ∀ d ∈ g, p d := by
  induction h generalizing before with
  | nil => simp at hrows
  | @cons f row frames rows hrow _ ih =>
    rw [List.flatten_cons] at hrows
    -- the candidate is in the first row, or behind it
    have hsplit : c ∈ row ∨ ∃ before', before = row ++ before' ∧
        rows.flatten = before' ++ c :: behind := by
      rcases List.append_eq_append_iff.mp hrows with ⟨before', hb, hrest⟩ | ⟨rest, rfl, hrest⟩
      · exact Or.inr ⟨before', hb, hrest⟩
      · rcases rest with _ | ⟨e, rest⟩
        · exact Or.inr ⟨[], by simp, hrest.symm⟩
        · obtain rfl := (List.cons.inj hrest).1
          exact Or.inl (by simp)
    rcases hsplit with hc | ⟨before', rfl, hrest⟩
    · exact ⟨[], f, frames, rfl, (hrow c).mp hc, by simp⟩
    · obtain ⟨inner, g, outer, rfl, hc, hinner⟩ :=
        ih hrest fun d hd => hbefore d (List.mem_append_right row hd)
      refine ⟨f :: inner, g, outer, rfl, hc, ?_⟩
      intro e he d hd
      rcases List.mem_cons.mp he with rfl | he
      · exact hbefore d (List.mem_append_left before' ((hrow d).mpr hd))
      · exact hinner e he d hd

/-- A hint for a name, given if a visible name is within the limit. No visible name is nearer, and
all names of the frames inside that of the hint are further away. -/
structure Hints (s : Scopes) (name : String) (limit : Nat) (hint : Option String) : Prop where
  /-- when there is one -/
  isSome_iff : hint.isSome ↔ ∃ c, s.Visible c ∧ away name c ≤ limit
  /-- it can be seen -/
  visible : ∀ c ∈ hint, s.Visible c
  /-- it is another name -/
  ne : ∀ c ∈ hint, c ≠ name
  /-- it is near enough -/
  near : ∀ c ∈ hint, away name c ≤ limit
  /-- no other is nearer -/
  nearest : ∀ c ∈ hint, ∀ d, s.Visible d → away name c ≤ away name d
  /-- it is of the innermost frame that has a name so near -/
  innermost : ∀ c ∈ hint, ∃ inner f outer, s.frames = inner ++ f :: outer ∧ c ∈ f ∧
    ∀ g ∈ inner, ∀ d ∈ g, away name c < away name d

/-- **The first of the nearest names is a hint**, in whatever order the names of a frame come. -/
theorem Listed.hints (h : s.Listed rows) (hname : s.get? name = none) :
    s.Hints name (reach name) (nearest? name rows.flatten) := by
  have hnearest (c : String) (hc : c ∈ nearest? name rows.flatten) :
      IsFirstNearest name (reach name) rows.flatten c :=
    Suggestion.nearest?_eq_some_iff.mp hc
  refine ⟨?_, fun c hc => ?_, fun c hc => ?_, fun c hc => ?_, fun c hc d hd => ?_, fun c hc => ?_⟩
  · rw [← Option.ne_none_iff_isSome, ne_eq, Suggestion.nearest?_eq_none_iff]
    simp [h.mem_flatten_iff]
  · exact (h.mem_flatten_iff c).mp (hnearest c hc).mem
  · rintro rfl
    obtain ⟨v, hv⟩ := (h.mem_flatten_iff c).mp (hnearest c hc).mem
    rw [hname] at hv
    cases hv
  · exact (hnearest c hc).away_le
  · exact (hnearest c hc).away_le_away ((h.mem_flatten_iff d).mpr hd)
  · obtain ⟨before, behind, hrows, -, hbefore, -⟩ := hnearest c hc
    exact exists_frame h hrows hbefore

end Scopes

/-- **A hint is a nearest visible name.** A variable that is not visible fails as undefined. The
message has a hint exactly if a visible name is within the limit, and then it is another name that
is visible and within the limit, none is nearer, and none of a frame inside its own is as near. This
does not depend on the order in which the names of a frame come. In general, the search suggests the
first of the nearest candidates within the limit, and nothing exactly if there are none. -/
theorem eval_var_hint {ι : Type} [LineSource ι] (scopes : Scopes) (span : Span) (name : String)
    (input : ι) (hname : scopes.get? name = none) :
    let limit (word : String) := if word.length ≤ 4 then 1 else 2
    (∃ hint, (eval scopes (.var span name)).run input =
        (.error (.undefinedVariable name hint), input) ∧
      (Fault.undefinedVariable name hint).category = .undefinedVariable ∧
      (Fault.undefinedVariable name hint).message = "undefined variable: " ++ name ++
        hint.elim "" (fun c => " (did you mean `" ++ c ++ "`?)") ∧
      scopes.Hints name (limit name) hint) ∧
    (∀ rows, scopes.Listed rows →
      scopes.Hints name (limit name) (nearest? name rows.flatten)) ∧
    ∀ (word : String) (candidates : List String),
      (nearest? word candidates = none ↔ ∀ d ∈ candidates, limit word < away word d) ∧
      ∀ c, nearest? word candidates = some c ↔ IsFirstNearest word (limit word) candidates c := by
  refine ⟨⟨nearest? name scopes.names, ?_, rfl, ?_, ?_⟩, fun rows hrows => ?_,
    fun word candidates => ⟨?_, fun c => ?_⟩⟩
  · have hlookup : scopes.lookup name =
        .error (.undefinedVariable name (nearest? name scopes.names)) := by
      rw [Scopes.lookup, hname]
    rw [eval, hlookup]
    rfl
  · cases nearest? name scopes.names <;> rfl
  · exact scopes.listed_rows.hints hname
  · exact hrows.hints hname
  · exact Suggestion.nearest?_eq_none_iff
  · exact Suggestion.nearest?_eq_some_iff

/-- Two frames have a name one edit away; that of the inner frame is suggested. -/
theorem eval_var_hint_inner :
    ∃ (scopes : Scopes) (hint : Option String),
      scopes = ⟨[(∅ : Frame).insert "coin" (.int 1)], (∅ : Frame).insert "con" (.int 2), .byName⟩ ∧
      scopes.get? "corn" = none ∧ hint = some "coin" ∧
      (eval scopes (.var ⟨0, 4⟩ "corn")).run ["7"] =
        (.error (.undefinedVariable "corn" hint), ["7"]) ∧
      scopes.Hints "corn" 1 hint := by
  let scopes : Scopes :=
    ⟨[(∅ : Frame).insert "coin" (.int 1)], (∅ : Frame).insert "con" (.int 2), .byName⟩
  have hname : scopes.get? "corn" = none := by with_unfolding_all rfl
  obtain ⟨⟨hint, hrun, -, -, hhint⟩, -⟩ := eval_var_hint scopes ⟨0, 4⟩ "corn" ["7"] hname
  have hcoin : (eval scopes (.var ⟨0, 4⟩ "corn")).run ["7"] =
      (.error (.undefinedVariable "corn" (some "coin")), ["7"]) := by with_unfolding_all rfl
  obtain rfl : hint = some "coin" := by
    rw [hcoin] at hrun
    cases hrun
    rfl
  exact ⟨scopes, _, rfl, hname, rfl, hrun, hhint⟩

end Scriptling

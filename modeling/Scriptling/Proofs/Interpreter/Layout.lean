import Scriptling.Proofs.Grammar.SyntaxErrors
import Scriptling.Proofs.Interpreter.Listings

/-!
# Layout does not matter

Blanks, comments and the places of tokens decide nothing: neither whether a text is a program,
nor which one it is, nor what happens when it is run.

Rows of tokens that are the same up to their places spell the same trees up to places, because
the trees of a row are known from those of the relocated row. Where a row is refused is known
from which of its beginnings begin programs, so that is at the same token too. And a program
with its places forgotten is run in the same way; only the places of errors differ, and, if bindings
are listed in different orders, a hint may be put for one that is equally near.
-/

namespace Scriptling

/-! ## Rows with the same tokens -/

/-- The rows are the same up to the places of the tokens. -/
def Placed.SameTokens (ts us : List Placed) : Prop :=
  ts.map (·.token) = us.map (·.token)

namespace Placed.SameTokens

variable {ts us : List Placed}

theorem symm (h : SameTokens ts us) : SameTokens us ts :=
  Eq.symm h

theorem length_eq (h : SameTokens ts us) : ts.length = us.length := by
  simpa using congrArg List.length h

theorem append_right (h : SameTokens ts us) (more : List Placed) :
    SameTokens (ts ++ more) (us ++ more) := by
  rw [SameTokens, List.map_append, List.map_append, h]

theorem take (h : SameTokens ts us) (n : Nat) : SameTokens (ts.take n) (us.take n) := by
  rw [SameTokens, List.map_take, List.map_take, h]

/-- With all offsets set to one number the rows are equal. -/
theorem map_relocate (h : SameTokens ts us) (k : Nat) :
    ts.map (Placed.relocate fun _ => k) = us.map (Placed.relocate fun _ => k) := by
  have hplace (row : List Placed) : row.map (Placed.relocate fun _ => k) =
      (row.map (·.token)).map (Placed.mk · ⟨k, k⟩) := by
    rw [List.map_map]
    rfl
  rw [hplace, hplace, h]

/-- **The same tokens spell the same trees**, up to places. -/
theorem exists_ofTokens (h : SameTokens ts us) {p : Program}
    (hp : Program.ofTokens ts = .ok p) :
    ∃ q, Program.ofTokens us = .ok q ∧ p.erase = q.erase := by
  have hspelled := (Program.spelledBy_of_ofTokens hp).relocate (monotone_const (c := 0))
  rw [h.map_relocate] at hspelled
  obtain ⟨⟨q, ⟨⟩⟩, hq, herase⟩ := hspelled.of_relocate monotone_const rfl
  exact ⟨q, Program.ofTokens_of_spelledBy hq, (congrArg Prod.fst herase).symm⟩

theorem beginsProgram (h : SameTokens ts us) (hts : BeginsProgram ts) : BeginsProgram us := by
  obtain ⟨more, p, hp⟩ := hts
  obtain ⟨q, hq, -⟩ := (h.append_right more).exists_ofTokens hp
  exact ⟨more, q, hq⟩

end Placed.SameTokens

/-- What begins a program has beginnings that do. -/
theorem Placed.BeginsProgram.of_append {ts us : List Placed} (h : BeginsProgram (ts ++ us)) :
    BeginsProgram ts := by
  obtain ⟨more, p, hp⟩ := h
  rw [List.append_assoc] at hp
  exact ⟨us ++ more, p, hp⟩

/-- The parser reads as much of a row as of any other row with the same tokens. -/
theorem Config.Stuck.length_rest_le {ts us : List Placed} {c d : Config} (hc : c.Stuck ts)
    (hd : d.Stuck us) (h : Placed.SameTokens ts us) : c.rest.length ≤ d.rest.length := by
  by_contra hlt
  obtain ⟨read, -, hread, -⟩ := hc.exists_before
  obtain ⟨read', -, hread', hbegins⟩ := hd.exists_before
  rcases hrest : c.rest with _ | ⟨t, after⟩
  · rw [hrest] at hlt
    exact hlt (Nat.zero_le _)
  · rw [hrest] at hread hlt
    -- on the second row the parser has read the token on which it is stuck on the first one
    have hlength := h.length_eq
    rw [← hread, ← hread', List.length_append, List.length_append] at hlength
    have hle : read.length + 1 ≤ read'.length := by
      rw [List.length_cons] at hlt hlength
      omega
    have htake : Placed.SameTokens (read'.take (read.length + 1)) (read ++ [t]) := by
      have hprefix := h.symm.take (read.length + 1)
      rwa [← hread, ← hread', List.take_append_of_le_length hle,
        List.take_length_add_append] at hprefix
    rw [← List.take_append_drop (read.length + 1) read'] at hbegins
    exact hc.not_beginsProgram hread hrest (htake.beginsProgram hbegins.of_append)

/-- Two rows are refused at tokens with the same index, or both at their ends. -/
def SyntaxError.SamePlace (ts us : List Placed) (e e' : SyntaxError) : Prop :=
  (∃ (i : Nat) (t u : Placed), ts[i]? = some t ∧ us[i]? = some u ∧
    e.found = .token t ∧ e'.found = .token u) ∨
  ∃ stop stop', e.found = .endOfInput stop ∧ e'.found = .endOfInput stop'

/-- **The same tokens are refused at the same place.** -/
theorem Placed.SameTokens.samePlace {ts us : List Placed} (h : SameTokens ts us)
    {e e' : SyntaxError} (he : Program.ofTokens ts = .error e)
    (he' : Program.ofTokens us = .error e') : e.SamePlace ts us e' := by
  obtain ⟨c, hc, rfl⟩ := Program.ofTokens_eq_error he
  obtain ⟨d, hd, rfl⟩ := Program.ofTokens_eq_error he'
  obtain ⟨read, -, hread, -⟩ := hc.exists_before
  obtain ⟨read', -, hread', -⟩ := hd.exists_before
  have hrest : c.rest.length = d.rest.length :=
    Nat.le_antisymm (hc.length_rest_le hd h) (hd.length_rest_le hc h.symm)
  have hlength : read.length = read'.length := by
    have htotal := h.length_eq
    rw [← hread, ← hread', List.length_append, List.length_append] at htotal
    omega
  rcases hc' : c.rest with _ | ⟨t, after⟩ <;> rcases hd' : d.rest with _ | ⟨u, after'⟩
  · rw [Config.obstacle_nil hc', Config.obstacle_nil hd']
    exact Or.inr ⟨_, _, rfl, rfl⟩
  · simp [hc', hd'] at hrest
  · simp [hc', hd'] at hrest
  · left
    rw [hc'] at hread
    rw [hd'] at hread'
    rw [hc.obstacle_cons hc', hd.obstacle_cons hd']
    exact ⟨read.length, t, u, by simp [← hread], by simp [← hread', hlength], rfl, rfl⟩

/-! ## Runs without places -/

/-- The same fault, which has the same class and the same message, at whatever places. -/
def RunError.SameFault (e e' : RunError) : Prop :=
  e.fault = e'.fault

theorem RunError.SameFault.refl (e : RunError) : e.SameFault e := rfl

/-- The same fault up to equally near hints, at whatever places. -/
def RunError.TiedFault (e e' : RunError) : Prop :=
  e.fault.Tied e'.fault

section

variable {ι ο : Type} [LineSource ι]

/-- Evaluation does not look at places. -/
theorem eval_relocate (g : Nat → Nat) (scopes : Scopes) (e : Expr) :
    (eval scopes (e.relocate g) : Eval ι Value) = eval scopes e := by
  induction e with
  | _ => simp only [Expr.relocate, eval, *]

variable [LineSink ο]

/-- The actions of a statement do not look at places, except to report an error there. -/
theorem Exec.coupling_relocate (g : Nat → Nat) :
    Coupling g (Eq : Machine ι ο → Machine ι ο → Prop) RunError.SameFault where
  fault f := rfl
  locate span e e' h := by
    obtain ⟨f, place⟩ := e
    obtain ⟨f', place'⟩ := e'
    cases place <;> cases place' <;> exact h
  evaluate e := by
    rintro m _ rfl
    simp only [Exec.evaluate, ExceptT.run_mk, eval_relocate]
    exact ⟨.refl RunError.SameFault.refl _, trivial⟩
  store x v := by
    rintro m _ rfl
    exact ⟨.refl RunError.SameFault.refl _, rfl⟩
  write line := by
    rintro m _ rfl
    exact ⟨.refl RunError.SameFault.refl _, rfl⟩
  flush := by
    rintro m _ rfl
    exact ⟨.refl RunError.SameFault.refl _, rfl⟩
  inFrame h := by
    rintro m _ rfl
    obtain ⟨hresult, hmachine⟩ := h { m with scopes := m.scopes.push } _ rfl
    exact ⟨hresult, congrArg (fun m => { m with scopes := m.scopes.pop }) hmachine⟩

/-- Programs that are the same up to places do the same. -/
theorem Program.run_of_erase_eq {p q : Program} (h : p.erase = q.erase) (m : Machine ι ο) :
    Matches RunError.SameFault (p.run.run m).1 (q.run.run m).1 ∧
      (p.run.run m).2 = (q.run.run m).2 := by
  -- both are compared with the program without places
  obtain ⟨hp, hmp⟩ := (Exec.coupling_relocate fun _ => 0).run p m m rfl
  obtain ⟨hq, hmq⟩ := (Exec.coupling_relocate fun _ => 0).run q m m rfl
  have herase : p.relocate (fun _ => 0) = q.relocate fun _ => 0 := h
  rw [herase] at hp hmp
  refine ⟨hp.trans (fun {e e' e''} he he' => ?_) hq.symm, hmp.trans hmq.symm⟩
  exact Eq.trans he (Eq.symm he')

/-- **Layout does not matter.** Two sources with the same tokens are both accepted, with the same
tree up to places, or both refused, at the same token or both at the end. And two programs that
are the same up to places do the same in every state and on every input: they end in the same
way or with the same fault, and leave the same variables, input and output. If the two runs list
the bindings of their frames in different orders, then nothing changes but a hint for one that is
equally near. -/
theorem layout_independence :
    (∀ (a b : String) (ts us : List Placed), scan a.toList = .ok ts → scan b.toList = .ok us →
      ts.map (·.token) = us.map (·.token) →
      (∃ p q, Program.ofSource a = .ok p ∧ Program.ofSource b = .ok q ∧ p.erase = q.erase) ∨
      ∃ e e', Program.ofSource a = .error (.parse e) ∧ Program.ofSource b = .error (.parse e') ∧
        e.SamePlace ts us e') ∧
    ∀ (p q : Program) (m : Machine ι ο), p.erase = q.erase →
      (Matches RunError.SameFault (p.run.run m).1 (q.run.run m).1 ∧
        (p.run.run m).2 = (q.run.run m).2) ∧
      ∀ l : Listing,
        Matches RunError.TiedFault (p.run.run m).1 (q.run.run (m.relist l)).1 ∧
          (q.run.run (m.relist l)).2 = (p.run.run m).2.relist l := by
  refine ⟨fun a b ts us ha hb h => ?_, fun p q m h => ?_⟩
  · have hsame : Placed.SameTokens ts us := h
    rcases hts : Program.ofTokens ts with e | p <;> rcases hus : Program.ofTokens us with e' | q
    · right
      exact ⟨e, e', Program.ofSource_eq_parse_iff.mpr ⟨ts, ha, hts⟩,
        Program.ofSource_eq_parse_iff.mpr ⟨us, hb, hus⟩, hsame.samePlace hts hus⟩
    · obtain ⟨p, hp, -⟩ := hsame.symm.exists_ofTokens hus
      rw [hts] at hp
      cases hp
    · obtain ⟨q, hq, -⟩ := hsame.exists_ofTokens hts
      rw [hus] at hq
      cases hq
    · left
      obtain ⟨q', hq', herase⟩ := hsame.exists_ofTokens hts
      obtain rfl : q = q' := Except.ok.inj (hus.symm.trans hq')
      exact ⟨p, q, Program.ofSource_eq_ok_iff.mpr ⟨ts, ha, hts⟩,
        Program.ofSource_eq_ok_iff.mpr ⟨us, hb, hus⟩, herase⟩
  · obtain ⟨hresult, hmachine⟩ := Program.run_of_erase_eq h m
    refine ⟨⟨hresult, hmachine⟩, fun l => ?_⟩
    obtain ⟨htied, hrelist⟩ := q.run_relist m l
    constructor
    · refine hresult.trans (fun {e e' e''} he he' => ?_) htied
      have heq : e.fault = e'.fault := he
      rw [RunError.TiedFault, heq]
      exact he'.1
    · rw [hrelist, hmachine]

end

/-- `x := (1;` with and without a comment in it, and `begin ab := 1; ac := 2; print(ad) end` at two
places. Both runs of the second one fail at the misspelled name. The two names that are equally
near to it are listed in different orders, and so the hints differ. -/
theorem layout_independence_comment :
    ∃ (a b : String) (ts us : List Placed) (p q : Program)
      (m : Machine (List String) LineBuffer),
      a = "x := (1;" ∧ b = "x:=( // one\n1;" ∧ scan a.toList = .ok ts ∧ scan b.toList = .ok us ∧
      ts.map (·.token) = us.map (·.token) ∧ ts ≠ us ∧
      ((∃ p q, Program.ofSource a = .ok p ∧ Program.ofSource b = .ok q ∧ p.erase = q.erase) ∨
        ∃ e e', Program.ofSource a = .error (.parse e) ∧
          Program.ofSource b = .error (.parse e') ∧ e.SamePlace ts us e') ∧
      p = ⟨[.block ⟨0, 37⟩ [.assign ⟨6, 13⟩ "ab" (.int ⟨12, 13⟩ 1),
        .assign ⟨15, 22⟩ "ac" (.int ⟨21, 22⟩ 2), .print ⟨24, 33⟩ (.var ⟨30, 32⟩ "ad")]]⟩ ∧
      q = p.relocate (· + 3) ∧ p.erase = q.erase ∧
      (p.run.run m).1 = .error ⟨.undefinedVariable "ad" (some "ab"), some ⟨24, 33⟩⟩ ∧
      (q.run.run (m.relist .reversed)).1 =
        .error ⟨.undefinedVariable "ad" (some "ac"), some ⟨27, 36⟩⟩ ∧
      (Matches RunError.SameFault (p.run.run m).1 (q.run.run m).1 ∧
        (p.run.run m).2 = (q.run.run m).2) ∧
      Matches RunError.TiedFault (p.run.run m).1 (q.run.run (m.relist .reversed)).1 ∧
      (q.run.run (m.relist .reversed)).2 = (p.run.run m).2.relist .reversed := by
  let ts : List Placed := [⟨.name "x", ⟨0, 1⟩⟩, ⟨.mark .assign, ⟨2, 4⟩⟩, ⟨.mark .lparen, ⟨5, 6⟩⟩,
    ⟨.int 1, ⟨6, 7⟩⟩, ⟨.mark .semi, ⟨7, 8⟩⟩]
  let us : List Placed := [⟨.name "x", ⟨0, 1⟩⟩, ⟨.mark .assign, ⟨1, 3⟩⟩, ⟨.mark .lparen, ⟨3, 4⟩⟩,
    ⟨.int 1, ⟨12, 13⟩⟩, ⟨.mark .semi, ⟨13, 14⟩⟩]
  let p : Program := ⟨[.block ⟨0, 37⟩ [.assign ⟨6, 13⟩ "ab" (.int ⟨12, 13⟩ 1),
    .assign ⟨15, 22⟩ "ac" (.int ⟨21, 22⟩ 2), .print ⟨24, 33⟩ (.var ⟨30, 32⟩ "ad")]]⟩
  have hts : scan "x := (1;".toList = .ok ts := by with_unfolding_all rfl
  have hus : scan "x:=( // one\n1;".toList = .ok us := by with_unfolding_all rfl
  have herase : p.erase = (p.relocate (· + 3)).erase := rfl
  have law := layout_independence (ι := List String) (ο := LineBuffer)
  obtain ⟨hsame, htied⟩ := law.2 p (p.relocate (· + 3)) (.start [] .empty) herase
  exact ⟨_, _, ts, us, p, _, .start [] .empty, rfl, rfl, hts, hus, rfl, by decide,
    law.1 _ _ ts us hts hus rfl, rfl, rfl, herase, by with_unfolding_all rfl,
    by with_unfolding_all rfl, hsame, htied .reversed⟩

end Scriptling

import Scriptling.Proofs.Grammar.SyntaxErrors
import Scriptling.Proofs.Interpreter.Jumps
import Scriptling.Proofs.Token.Failures

/-!
# The places of errors

Whatever is wrong with a source or with its run, the error has a place in the source
(`Machine.runSource_pointsInto`). There are three kinds of errors, and they get their places in
three ways.

* Where the source cannot be cut into tokens, the place is that of the lexeme at fault.
* Where the tokens are no program, it is that of a token, or the byte behind the last token. That
  byte may lie behind the end of the source. If it does not, then it is a whole character, because
  blanks and slashes are bytes.
* Where the run fails, it is that of a statement of the program, and nodes of a program stand where
  their tokens do.

All but the byte behind the last token are places of a text that is not empty (`Span.Holds`), and
the ends of such places are boundaries of characters.
-/

namespace Scriptling

open String (utf8Len)

/-! ## Places in a text -/

namespace Span.Holds

variable {s : Span} {source text : String}

theorem start_le_stop (h : s.Holds source text) : s.start ≤ s.stop := by
  obtain ⟨before, behind, -, hstart, hstop⟩ := h
  omega

theorem stop_le (h : s.Holds source text) : s.stop ≤ source.utf8ByteSize := by
  obtain ⟨before, behind, rfl, -, hstop⟩ := h
  simp only [String.utf8ByteSize_append]
  omega

theorem start_isValid (h : s.Holds source text) :
    (String.Pos.Raw.mk s.start).IsValid source := by
  obtain ⟨before, behind, rfl, hstart, -⟩ := h
  refine String.Pos.Raw.isValid_iff_exists_append.mpr ⟨before, text ++ behind, ?_, ?_⟩
  · rw [String.append_assoc]
  · rw [hstart]
    rfl

theorem stop_isValid (h : s.Holds source text) :
    (String.Pos.Raw.mk s.stop).IsValid source := by
  obtain ⟨before, behind, rfl, -, hstop⟩ := h
  refine String.Pos.Raw.isValid_iff_exists_append.mpr ⟨before ++ text, behind, rfl, ?_⟩
  rw [hstop, ← String.utf8ByteSize_append]
  rfl

/-- A place in the source is not cut off. -/
theorem clamp_eq (h : s.Holds source text) : s.clamp source.utf8ByteSize = s := by
  have hstart := h.start_le_stop
  have hstop := h.stop_le
  rw [clamp, Nat.min_eq_left (by omega), Nat.min_eq_left hstop]

end Span.Holds

/-- The span is a place in the source that is not empty, except that it may go on behind the end.
As far as the source goes, it consists of whole characters. -/
structure Span.Bounded (source : String) (s : Span) : Prop where
  /-- it is not empty -/
  start_lt_stop : s.start < s.stop
  /-- it starts in the source, or where the source ends -/
  start_le : s.start ≤ source.utf8ByteSize
  /-- as far as the source goes, its ends are in order -/
  clamp_ordered : (s.clamp source.utf8ByteSize).start ≤ (s.clamp source.utf8ByteSize).stop
  /-- as far as the source goes, it starts at a boundary of characters -/
  start_isValid : (String.Pos.Raw.mk (s.clamp source.utf8ByteSize).start).IsValid source
  /-- as far as the source goes, it stops at a boundary of characters -/
  stop_isValid : (String.Pos.Raw.mk (s.clamp source.utf8ByteSize).stop).IsValid source

theorem Span.Bounded.of_clamp {s : Span} {source text : String} (hlt : s.start < s.stop)
    (hstart : s.start ≤ source.utf8ByteSize)
    (h : (s.clamp source.utf8ByteSize).Holds source text) : s.Bounded source :=
  ⟨hlt, hstart, h.start_le_stop, h.start_isValid, h.stop_isValid⟩

/-- The place of a text that is not empty is bounded. -/
theorem Span.Holds.bounded {s : Span} {source text : String} (h : s.Holds source text)
    (hlt : s.start < s.stop) : s.Bounded source := by
  have hstart := h.start_le_stop
  have hstop := h.stop_le
  have hclamp : (s.clamp source.utf8ByteSize).Holds source text := by rwa [h.clamp_eq]
  exact .of_clamp hlt (by omega) hclamp

/-! ## Where scanning fails -/

/-- A stray character is a lexeme at fault by itself. -/
theorem Lexeme.text_of_strayChar {c d : Char} {cs : List Char}
    (h : (first c cs).is = .wrong (.strayChar d)) : (first c cs).text = [d] := by
  have hfault := faultAt_of_first h
  generalize (first c cs).text = text at hfault ⊢
  cases hfault
  rfl

/-- The lexeme at fault, with its place, is in the source. -/
theorem ScanError.exists_holds {source : String} {e : ScanError}
    (h : scan source.toList = .error e) :
    ∃ c cs, (Lexeme.first c cs).is = .wrong e.fault ∧
      e.span.Holds source (String.ofList (Lexeme.first c cs).text) ∧
      e.span.start < e.span.stop := by
  obtain ⟨before, c, cs, ts, hsource, -, hwrong, hspan⟩ := Scans.of_scanFrom_error h
  have hpos := utf8Len_pos (Lexeme.text_ne_nil c cs)
  rw [Nat.zero_add] at hspan
  refine ⟨c, cs, hwrong, ?_, ?_⟩
  · rw [hspan]
    rw [← Lexeme.text_append_rest c cs, ← List.append_assoc] at hsource
    exact Span.holds_of_append hsource
  · rw [hspan]
    exact Nat.lt_add_of_pos_right hpos

/-! ## Behind the last token -/

/-- What is skipped starts with a character of one byte. -/
theorem Pattern.utf8Size_of_skipped {c : Char} {cs : List Char}
    (h : c :: cs ∈ KStar.kstar skipped) : c.utf8Size = 1 := by
  obtain ⟨parts, hflatten, hparts⟩ := Language.mem_kstar_iff_exists_nonempty.mp h
  cases parts with
  | nil => cases hflatten
  | cons part parts =>
    obtain ⟨hskipped, hne⟩ := hparts part List.mem_cons_self
    obtain ⟨d, ds, rfl⟩ := List.exists_cons_of_ne_nil hne
    obtain ⟨rfl, -⟩ := List.cons_eq_cons.mp hflatten
    obtain hblanks | hcomment := hskipped
    · obtain ⟨_, _, heq, hblank, -⟩ := mem_run.mp hblanks
      obtain ⟨rfl, -⟩ := List.cons_eq_cons.mp heq
      obtain rfl | rfl | rfl | rfl | rfl := Lexeme.isBlank_eq_true_iff.mp hblank
      all_goals rfl
    · obtain ⟨_, heq, -⟩ := mem_comment.mp hcomment
      obtain ⟨rfl, -⟩ := List.cons_eq_cons.mp heq
      rfl

/-- **The byte behind the last token** is a character or not in the source. -/
theorem Scans.exists_behind {source : String} {ts : List Placed} {last : Placed}
    (h : Scans [] 0 source.toList ts) (hlast : ts.getLast? = some last) :
    last.span.stop ≤ source.utf8ByteSize ∧ ∃ text,
      ((Span.mk last.span.stop (last.span.stop + 1)).clamp source.utf8ByteSize).Holds source
        text := by
  obtain ⟨gap, hgap, hskipped⟩ := h.spread.gap ts [] (List.append_nil ts).symm
  have hstop : Placed.stopOr 0 ts = last.span.stop := by simp [Placed.stopOr, hlast]
  rw [hstop] at hgap
  refine ⟨hgap.start_le_stop, ?_⟩
  obtain ⟨before, behind, rfl, hbefore, hend⟩ := hgap
  change last.span.stop = _ at hbefore
  rcases hchars : gap.toList with _ | ⟨c, cs⟩
  · -- the source ends with the token
    obtain rfl : gap = "" := String.toList_eq_nil_iff.mp hchars
    have hend : (before ++ "" ++ behind).utf8ByteSize = last.span.stop := hend.trans hbefore.symm
    refine ⟨"", before, behind, rfl, ?_, ?_⟩
    · simp only [Span.clamp, hend, Nat.min_self]
      exact hbefore
    · simp only [Span.clamp, hend, Nat.min_eq_right (Nat.le_succ _)]
      exact hbefore
  · have hsize : utf8Len [c] = 1 := by
      rw [hchars] at hskipped
      simp [Pattern.utf8Size_of_skipped hskipped]
    have hholds : Span.Holds ⟨last.span.stop, last.span.stop + 1⟩ (before ++ gap ++ behind)
        (String.ofList [c]) := by
      have hsource : (before ++ gap ++ behind).toList =
          before.toList ++ [c] ++ (cs ++ behind.toList) := by
        simp [hchars]
      have hplace := Span.holds_of_append hsource
      rwa [hsize, ← String.utf8ByteSize_ofList, String.ofList_toList, ← hbefore] at hplace
    rw [hholds.clamp_eq]
    exact ⟨_, hholds⟩

/-- A row of tokens is refused at one of them or behind the last one. -/
theorem Program.found_of_ofTokens {ts : List Placed} {e : SyntaxError}
    (h : Program.ofTokens ts = .error e) :
    (∃ t ∈ ts, e.found = .token t) ∨
      ∃ last, ts.getLast? = some last ∧ e.found = .endOfInput last.span.stop := by
  obtain ⟨c, hstuck, he⟩ := ofTokens_eq_error h
  obtain ⟨before, -, hinput⟩ := hstuck.consistent
  rcases hrest : c.rest with _ | ⟨t, after⟩
  · right
    obtain ⟨last, hlast⟩ : ∃ last, ts.getLast? = some last := by
      rw [← Option.isSome_iff_exists, List.getLast?_isSome]
      rintro rfl
      rw [ofTokens_nil] at h
      cases h
    rw [he, hlast, Config.obstacle_nil hrest]
    exact ⟨last, rfl, rfl⟩
  · left
    rw [hrest] at hinput
    rw [he, hstuck.obstacle_cons hrest]
    exact ⟨t, by simp [← hinput], rfl⟩

/-! ## Where a run fails -/

/-- The error is at a statement among the nodes. -/
def RunError.AtStmt (nodes : List Node) (e : RunError) : Prop :=
  ∃ t, .stmt t ∈ nodes ∧ e.span = some t.span

theorem RunError.AtStmt.mono {nodes nodes' : List Node} {e : RunError} (h : e.AtStmt nodes)
    (hnodes : nodes ⊆ nodes') : e.AtStmt nodes' := by
  obtain ⟨t, ht, hspan⟩ := h
  exact ⟨t, hnodes ht, hspan⟩

/-- The computation fails at statements among the nodes only. -/
def Exec.FailsIn {ι ο α : Type} (nodes : List Node) (x : Exec ι ο α) : Prop :=
  Ends (fun _ => True) (RunError.AtStmt nodes) x

namespace Exec.FailsIn

variable {ι ο α β : Type} {nodes nodes' : List Node}

theorem pure (a : α) : FailsIn nodes (pure a : Exec ι ο α) :=
  Ends.pure trivial

theorem bind {x : Exec ι ο α} {f : α → Exec ι ο β} (hx : FailsIn nodes x)
    (hf : ∀ a, FailsIn nodes (f a)) : FailsIn nodes (x >>= f) :=
  Ends.bind hx fun a _ => hf a

theorem mono {x : Exec ι ο α} (h : FailsIn nodes x) (hnodes : nodes ⊆ nodes') :
    FailsIn nodes' x :=
  Ends.mono h (fun _ ha => ha) fun _ he => he.mono hnodes

/-! What a statement does by itself fails at its own place. -/

theorem require {s : Stmt} (hs : .stmt s ∈ nodes) (r : Except Fault α) :
    FailsIn nodes (located s.span (require r) : Exec ι ο α) := by
  intro m
  cases r with
  | ok a => trivial
  | error f => exact ⟨s, hs, rfl⟩

theorem evaluate [LineSource ι] {s : Stmt} (hs : .stmt s ∈ nodes) (e : Expr) :
    FailsIn nodes (located s.span (evaluate e) : Exec ι ο Value) := by
  intro m
  rw [run_located_evaluate]
  rcases (eval m.scopes e).run m.input with ⟨f | v, input⟩
  · exact ⟨s, hs, rfl⟩
  · trivial

theorem store {s : Stmt} (hs : .stmt s ∈ nodes) (x : String) (v : Value) :
    FailsIn nodes (located s.span (store x v) : Exec ι ο Unit) := by
  intro m
  rw [run_located_store]
  rcases m.scopes.assign x v with f | scopes
  · exact ⟨s, hs, rfl⟩
  · trivial

theorem write [LineSink ο] {s : Stmt} (hs : .stmt s ∈ nodes) (line : String) :
    FailsIn nodes (located s.span (write line) : Exec ι ο Unit) := by
  intro m
  rw [run_located_write]
  rcases LineSink.write m.output line with ⟨why | u, output⟩
  · exact ⟨s, hs, rfl⟩
  · trivial

/-- A choice fails in its own work or in a branch. -/
theorem choice [LineSource ι] {s : Stmt} (hs : .stmt s ∈ nodes) (cond : Expr)
    {yes no : Exec ι ο Flow} (hyes : FailsIn nodes yes) (hno : FailsIn nodes no) :
    FailsIn nodes (do
      let v ← located s.span (Exec.evaluate cond)
      if ← located s.span (Exec.require v.asBool) then yes else no) := by
  refine (evaluate hs cond).bind fun v => (require hs v.asBool).bind fun b => ?_
  cases b
  · exact hno
  · exact hyes

theorem rounds {round : Int64 → Exec ι ο Flow} (hround : ∀ i, FailsIn nodes (round i)) (i : Int64)
    (count : Nat) : FailsIn nodes (rounds round i count) := by
  induction count generalizing i with
  | zero => exact pure _
  | succ count ih =>
    refine (hround i).bind fun flow => ?_
    cases flow with
    | normal => exact ih (i + 1)
    | jump j =>
      cases j
      · exact pure _
      · exact ih (i + 1)
    | exit => exact pure _

end Exec.FailsIn

section

variable {ι ο : Type} [LineSource ι] [LineSink ο]

open Exec (FailsIn)

mutual

/-- **A statement fails at itself or at a statement in it.** -/
theorem exec_failsIn : ∀ s : Stmt, FailsIn s.nodes (exec s : Exec ι ο Flow)
  | .assign span x e => by
    have hs := Stmt.mem_nodes (.assign span x e)
    rw [exec_assign]
    refine (FailsIn.evaluate hs e).bind fun v => (FailsIn.require hs _).bind fun _ => ?_
    exact (FailsIn.store hs x v).bind fun _ => .pure _
  | .print span e => by
    have hs := Stmt.mem_nodes (.print span e)
    rw [exec_print]
    refine (FailsIn.evaluate hs e).bind fun v => ?_
    exact (FailsIn.write hs v.text).bind fun _ => .pure _
  | .ifThen span cond yes => by
    have hs := Stmt.mem_nodes (.ifThen span cond yes)
    rw [exec_ifThen]
    refine FailsIn.choice hs cond ((exec_failsIn yes).mono fun y hy => ?_) (.pure _)
    simp [Stmt.nodes, hy]
  | .ifThenElse span cond yes no => by
    have hs := Stmt.mem_nodes (.ifThenElse span cond yes no)
    rw [exec_ifThenElse]
    refine FailsIn.choice hs cond ((exec_failsIn yes).mono fun y hy => ?_)
      ((exec_failsIn no).mono fun y hy => ?_)
    all_goals simp [Stmt.nodes, hy]
  | .forTo span x first last body => by
    have hs := Stmt.mem_nodes (.forTo span x first last body)
    have hbody : body.nodes ⊆ (Stmt.forTo span x first last body).nodes := by
      intro y hy
      simp [Stmt.nodes, hy]
    rw [exec_forTo]
    refine (FailsIn.evaluate hs first).bind fun a => (FailsIn.evaluate hs last).bind fun b => ?_
    refine (FailsIn.require hs a.asInt).bind fun a => (FailsIn.require hs b.asInt).bind fun b => ?_
    refine FailsIn.rounds (fun i => ?_) a _
    exact (FailsIn.store hs x _).bind fun _ => (exec_failsIn body).mono hbody
  | .block span body => by
    rw [exec_block]
    have hbody : FailsIn (Stmt.nodesAll body) (Exec.inFrame (execAll body) : Exec ι ο Flow) :=
      Exec.inFrame_ends (execAll_failsIn body)
    rw [Stmt.nodes]
    exact hbody.mono (List.subset_cons_self ..)
  | .break_ _ | .continue_ _ | .exit_ _ => FailsIn.pure _

/-- Statements in sequence fail at statements in them. -/
theorem execAll_failsIn : ∀ body : List Stmt,
    FailsIn (Stmt.nodesAll body) (execAll body : Exec ι ο Flow)
  | [] => FailsIn.pure _
  | s :: rest => by
    rw [execAll_cons, Stmt.nodesAll]
    refine ((exec_failsIn s).mono (List.subset_append_left ..)).bind fun flow => ?_
    cases flow with
    | normal => exact (execAll_failsIn rest).mono (List.subset_append_right ..)
    | jump | exit => exact .pure _

end

/-- A program fails at one of its statements: a stray jump is one of the statement at the top. -/
theorem runAll_failsIn (body : List Stmt) :
    FailsIn (body.flatMap Stmt.nodes) (runAll body : Exec ι ο Outcome) := by
  induction body with
  | nil => exact .pure _
  | cons s rest ih =>
    rw [runAll, List.flatMap_cons]
    refine ((exec_failsIn s).mono (List.subset_append_left ..)).bind fun flow => ?_
    cases flow with
    | normal => exact ih.mono (List.subset_append_right ..)
    | exit => exact .pure _
    | jump j => exact fun m => ⟨s, List.mem_append_left _ s.mem_nodes, rfl⟩

theorem Program.run_atStmt (hflush : ∀ o : ο, (LineSink.flush o).1 = .ok ()) {p : Program}
    {m m' : Machine ι ο} {e : RunError} (hrun : p.run.run m = (.error e, m')) :
    e.AtStmt p.nodes := by
  obtain ⟨m₁, hbody⟩ | ⟨m₁, herror⟩ := error_of_followedBy hrun
  · exact (runAll_failsIn p.body).of_error hbody
  · exact absurd herror (Exec.run_flush_ne_error hflush)

end

/-! ## Every error has a place -/

/-- Something is missing at the end of the source. -/
def Diagnostic.AtEnd (d : Diagnostic) : Prop :=
  ∃ stop expected, d = .parse ⟨.endOfInput stop, expected⟩

/-- The error points into the source, at the span. -/
structure Diagnostic.PointsInto (source : String) (s : Span) (d : Diagnostic) : Prop where
  /-- this is where it is -/
  span_eq : d.span = some s
  /-- the place is in the source, or goes on behind its end -/
  bounded : s.Bounded source
  /-- it goes on behind the end only if something is missing there -/
  stop_le : ¬ d.AtEnd → s.stop ≤ source.utf8ByteSize
  /-- what is missing at the end is missing behind the last token, for one byte -/
  atEnd : d.AtEnd → ∃ tokens last, Scriptling.scan source.toList = .ok tokens ∧
    tokens.getLast? = some last ∧ s = ⟨last.span.stop, last.span.stop + 1⟩
  /-- a stray character is at the place as a whole -/
  strayChar : ∀ c, d = .scan ⟨.strayChar c, s⟩ → s.Holds source (String.ofList [c])
  /-- a fault of a run is at the place of a statement -/
  stmt : ∀ e, d = .run e → ∃ p t, Program.ofSource source = .ok p ∧ .stmt t ∈ p.nodes ∧ s = t.span

section

variable {source : String}

theorem ScanError.pointsInto {e : ScanError} (h : scan source.toList = .error e) :
    (Diagnostic.scan e).PointsInto source e.span := by
  obtain ⟨c, cs, hwrong, hholds, hlt⟩ := e.exists_holds h
  refine ⟨rfl, hholds.bounded hlt, fun _ => hholds.stop_le, ?_, fun d hd => ?_, ?_⟩
  · rintro ⟨_, _, ⟨⟩⟩
  · have hfault : e.fault = .strayChar d := congrArg ScanError.fault (Diagnostic.scan.inj hd)
    rw [hfault] at hwrong
    rwa [Lexeme.text_of_strayChar hwrong] at hholds
  · intro e hd
    cases hd

theorem SyntaxError.pointsInto {tokens : List Placed} {e : SyntaxError}
    (hscan : scan source.toList = .ok tokens) (h : Program.ofTokens tokens = .error e) :
    (Diagnostic.parse e).PointsInto source e.span := by
  have hscans := scan_eq_ok_iff.mp hscan
  have hscanned (c : Char) (s : Span) : Diagnostic.parse e ≠ .scan ⟨.strayChar c, s⟩ := by
    intro hd
    cases hd
  have hran (e' : RunError) : Diagnostic.parse e ≠ .run e' := by
    intro hd
    cases hd
  rw [SyntaxError.span]
  obtain ⟨t, ht, hfound⟩ | ⟨last, hlast, hfound⟩ := Program.found_of_ofTokens h
  · obtain ⟨text, hholds, -⟩ := hscans.spread.text t ht
    have hlt := hscans.ordered.start_lt_stop t ht
    rw [hfound]
    refine ⟨?_, hholds.bounded hlt, fun _ => hholds.stop_le, ?_,
      fun c hd => absurd hd (hscanned c _), fun e' hd => absurd hd (hran e')⟩
    · rw [Diagnostic.span, SyntaxError.span, hfound]
    · rintro ⟨stop, expected, ⟨⟩⟩
      cases hfound
  · obtain ⟨hle, text, hholds⟩ := hscans.exists_behind hlast
    rw [hfound]
    refine ⟨?_, .of_clamp (Nat.lt_succ_self _) hle hholds, fun hnot => ?_,
      fun _ => ⟨tokens, last, hscan, hlast, rfl⟩, fun c hd => absurd hd (hscanned c _),
      fun e' hd => absurd hd (hran e')⟩
    · rw [Diagnostic.span, SyntaxError.span, hfound]
    · exact absurd ⟨_, e.expected, by rw [← hfound]⟩ hnot

theorem RunError.pointsInto {p : Program} {e : RunError} (hp : Program.ofSource source = .ok p)
    (he : e.AtStmt p.nodes) : ∃ s, (Diagnostic.run e).PointsInto source s := by
  obtain ⟨t, ht, hspan⟩ := he
  obtain ⟨tokens, hscans, hspelled⟩ := Program.ofSource_eq_ok_iff_scans.mp hp
  obtain ⟨us, hus, hnode⟩ := Spells.node hspelled ht
  obtain ⟨text, zs, hholds, -, -⟩ := hnode.exists_fragment hscans hus
  have hordered := hscans.ordered.of_sublist hus.sublist
  have hlt := hordered.start_lt_stop_of_extent (hnode.extent_eq hordered)
  refine ⟨t.span, hspan, hholds.bounded hlt, fun _ => hholds.stop_le, ?_, ?_, ?_⟩
  · rintro ⟨_, _, ⟨⟩⟩
  · intro c hd
    cases hd
  · exact fun _ _ => ⟨p, t, hp, ht, rfl⟩

end

section

variable {ι ο : Type} [LineSource ι] [LineSink ο]

/-- **Every error points into its source**, whatever the machine and its input are, as long as its
output can be flushed. -/
theorem Machine.runSource_pointsInto (hflush : ∀ o : ο, (LineSink.flush o).1 = .ok ())
    (m : Machine ι ο) (source : String) {d : Diagnostic} (h : (m.runSource source).1 = .error d) :
    ∃ s, d.PointsInto source s := by
  rw [Machine.runSource] at h
  rcases hsource : Program.ofSource source with d' | p
  · rw [hsource] at h
    obtain rfl := Except.error.inj h
    rw [Program.ofSource] at hsource
    rcases hscan : scan source.toList with e | tokens
    · rw [hscan] at hsource
      obtain rfl := Except.error.inj hsource
      exact ⟨e.span, e.pointsInto hscan⟩
    · rw [hscan] at hsource
      rcases hparse : Program.ofTokens tokens with e | p
      · simp only [hparse, Except.mapError] at hsource
        obtain rfl := Except.error.inj hsource
        exact ⟨e.span, e.pointsInto hscan hparse⟩
      · simp [hparse, Except.mapError] at hsource
  · rw [hsource] at h
    rcases hrun : p.run.run m with ⟨e | outcome, m'⟩
    · have hd : d = .run e := by simpa [Machine.runProgram, hrun, Except.mapError] using h.symm
      rw [hd]
      exact e.pointsInto hsource (Program.run_atStmt hflush hrun)
    · simp [Machine.runProgram, hrun, Except.mapError] at h

end

/-- A character of two bytes that starts no lexeme, an end that comes too early in front of a
comment, and a jump out of no loop. -/
theorem Machine.runSource_pointsInto_threeKinds :
    ∃ m : Machine (List String) LineBuffer, (∀ o : LineBuffer, (LineSink.flush o).1 = .ok ()) ∧
      ∃ stray missing jump : Diagnostic,
        stray = .scan ⟨.strayChar 'é', ⟨2, 4⟩⟩ ∧ (m.runSource "1 é").1 = .error stray ∧
        (∃ s, stray.PointsInto "1 é" s) ∧
        missing = .parse ⟨.endOfInput 1, [.mark .assign]⟩ ∧
        (m.runSource "x// é").1 = .error missing ∧ (∃ s, missing.PointsInto "x// é" s) ∧
        jump = .run ⟨.strayControl .break_, some ⟨0, 5⟩⟩ ∧ (m.runSource "break").1 = .error jump ∧
        ∃ s, jump.PointsInto "break" s := by
  let m : Machine (List String) LineBuffer := .start [] .empty
  have hflush (o : LineBuffer) : (LineSink.flush o).1 = .ok () := rfl
  have hstray : Program.ofSource "1 é" = .error (.scan ⟨.strayChar 'é', ⟨2, 4⟩⟩) := by
    with_unfolding_all rfl
  have hmissing : Program.ofSource "x// é" = .error (.parse ⟨.endOfInput 1, [.mark .assign]⟩) :=
    Program.ofSource_eq_parse_iff.mpr
      ⟨[⟨.name "x", ⟨0, 1⟩⟩], by with_unfolding_all rfl, Program.ofTokens_name⟩
  have hjump : Program.ofSource "break" = .ok ⟨[.break_ ⟨0, 5⟩]⟩ := by
    have hscan : scan "break".toList = .ok [⟨.word .break_, ⟨0, 5⟩⟩] := by with_unfolding_all rfl
    have hstmt := Spells.reduce .anyClosed (.reduce .simple (.reduce .break_
      (.single ⟨.word .break_, ⟨0, 5⟩⟩)))
    have hprogram := Spells.reduce .program (.reduce .stmtsOnly (.reduce .firstStmt hstmt))
    exact Program.ofSource_eq_ok_iff.mpr ⟨_, hscan, Program.ofTokens_of_spelledBy hprogram⟩
  have hrun {source : String} {d : Diagnostic} (hd : Program.ofSource source = .error d) :
      (m.runSource source).1 = .error d := by
    rw [Machine.runSource, hd]
  have hrunJump : (m.runSource "break").1 =
      .error (.run ⟨.strayControl .break_, some ⟨0, 5⟩⟩) := by
    rw [Machine.runSource, hjump]
    with_unfolding_all rfl
  exact ⟨m, hflush, _, _, _, rfl, hrun hstray, m.runSource_pointsInto hflush _ (hrun hstray), rfl,
    hrun hmissing, m.runSource_pointsInto hflush _ (hrun hmissing), rfl, hrunJump,
    m.runSource_pointsInto hflush _ hrunJump⟩

end Scriptling

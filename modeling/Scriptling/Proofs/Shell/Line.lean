import Scriptling.Proofs.Interpreter.Asking
import Scriptling.Proofs.Interpreter.FrameLaw
import Scriptling.Proofs.Interpreter.Streams
import Scriptling.Shell

/-!
# What comes of a line

A session takes a line from its input and does what the line asks for. If it is a program, the
program may take more lines from the same input. To say what comes of the line, a machine is put
beside the session that has the same variables and an input of lines (`Shell.reference`). Programs
are run on it too, and it is reset when the session is; nothing else that is typed concerns it
(`Machine.heed`).

How lines are told apart is looked at once (`Shell.handle_ofText`). Programs do the same over bytes
as over the lines of their text, and depend on the lines that they ask for only
(`Machine.exists_runSource_eq`). So there is an entry that tells what comes of the line
(`Shell.exists_tells`), and it does so for every input of the machine that begins with the lines
which the program reads.
-/

namespace Scriptling

/-! ## Lines from bytes -/

namespace ByteStream

variable {s : ByteStream} {line : String} {ls : List String}

theorem Spells.next_nil (h : s.Spells []) : s.next = (.finished, s) := by
  obtain ⟨text, rfl, hlines⟩ := h
  by_cases htext : text = ""
  · rw [htext, Text.encode_empty]
    rfl
  · obtain ⟨line, rest, hcons, -⟩ := exists_next_encode htext
    rw [hcons] at hlines
    cases hlines

theorem Spells.exists_next_cons (h : s.Spells (line :: ls)) :
    ∃ s', s.next = (.line line, s') ∧ s'.Spells ls := by
  obtain ⟨text, rfl, hlines⟩ := h
  by_cases htext : text = ""
  · rw [htext] at hlines
    cases hlines
  · obtain ⟨first, rest, hcons, hnext⟩ := exists_next_encode htext
    rw [hcons] at hlines
    obtain ⟨rfl, rfl⟩ := List.cons_eq_cons.mp hlines
    exact ⟨_, hnext, rest, rfl, rfl⟩

/-- Each line takes a byte at least. -/
theorem Spells.length_le (h : s.Spells ls) : ls.length ≤ s.rest.length := by
  induction ls generalizing s with
  | nil => exact Nat.zero_le _
  | cons line ls ih =>
    obtain ⟨s', hnext, hspells⟩ := h.exists_next_cons
    have hlt := length_next_lt (s := s) (by simp [hnext])
    rw [hnext] at hlt
    exact Nat.lt_of_le_of_lt (ih hspells) hlt

end ByteStream

/-- Reading from bytes and reading from their lines comes to the same. -/
theorem readLine_spells_tally {stop : Fault → Prop} :
    SimulatesUntil stop (fun (s : ByteStream) (t : Tally) => s.Spells t.rest) Eq
      (readLine : Eval ByteStream String) (readLine : Eval Tally String) := by
  intro s t h
  have hline := @readLine_spells stop s t.rest h
  rw [readLine_tally]
  exact hline

/-- To a text and to lines, the same lines were added. -/
def Transcript.Grown (before : String) (lines : List String) (t : Transcript) (b : LineBuffer) :
    Prop :=
  ∃ w : List String, b.lines = lines ++ w ∧ t.text = before ++ String.join (w.map (· ++ "\n"))

theorem Transcript.coupled_grown (before : String) (lines : List String) :
    LineSink.Coupled (Transcript.Grown before lines) where
  write {t b} line h := by
    obtain ⟨w, hlines, htext⟩ := h
    refine ⟨rfl, w ++ [line], ?_, ?_⟩
    · rw [LineBuffer.lines_write, hlines, List.append_assoc]
    · change t.text ++ line ++ "\n" = _
      rw [htext, List.map_append, String.join_append]
      simp [String.append_assoc]
  flush h := ⟨rfl, h⟩

/-- Run over bytes and run over their lines, a source comes to the same. -/
theorem Machine.runSource_spells {m : Machine ByteStream Transcript} {ls : List String}
    (hinput : m.input.Spells ls) (source : String) (asked : Nat) (output : LineBuffer) :
    let r := m.runSource source
    let r' := (⟨m.scopes, ⟨ls, asked⟩, output⟩ : Machine Tally LineBuffer).runSource source
    r.1 = r'.1 ∧ r.2.scopes = r'.2.scopes ∧ r.2.input.Spells r'.2.input.rest ∧
      Transcript.Grown m.output.text output.lines r.2.output r'.2.output := by
  have hgrown : Transcript.Grown m.output.text output.lines m.output output :=
    ⟨[], by simp, by simp⟩
  simp only [runSource]
  rcases Program.ofSource source with d | p
  · exact ⟨rfl, rfl, hinput, hgrown⟩
  · have hlockstep : Exec.Lockstep (fun _ => True) (fun _ => False) Eq Eq
        (fun (s : ByteStream) (t : Tally) => s.Spells t.rest)
        (Transcript.Grown m.output.text output.lines) :=
      ⟨fun _ => rfl, Scopes.coupled_eq fun _ => rfl, readLine_spells_tally,
        Transcript.coupled_grown _ _⟩
    obtain ⟨hresult, hparts⟩ := hlockstep.run_always (p := p) (fun _ _ => trivial) m
      ⟨m.scopes, ⟨ls, asked⟩, output⟩ ⟨rfl, hinput, hgrown⟩
    refine ⟨?_, hparts.scopes, hparts.input, hparts.output⟩
    exact congrArg (Except.mapError Diagnostic.run) hresult.eq_of_at

/-- **A source takes the lines that it asks for.** Run over bytes, it leaves those of the lines
behind; and over any lines that begin as these do, as far as it asks, it does the same. -/
theorem Machine.exists_runSource_eq {m : Machine ByteStream Transcript} {ls : List String}
    (hinput : m.input.Spells ls) (source : String) (asked : Nat) (output : LineBuffer) :
    ∃ (n : Nat) (w : List String) (output' : LineBuffer), output'.lines = output.lines ++ w ∧
      (m.runSource source).2.input.Spells (ls.drop n) ∧
      (m.runSource source).2.output.text = m.output.text ++ String.join (w.map (· ++ "\n")) ∧
      ∀ zs : List String, zs.take n = ls.take n →
        (⟨m.scopes, ⟨zs, asked⟩, output⟩ : Machine Tally LineBuffer).runSource source =
          ((m.runSource source).1,
            ⟨(m.runSource source).2.scopes, ⟨zs.drop n, asked + n⟩, output'⟩) := by
  obtain ⟨hresult, hscopes, hrest, w, hlines, htext⟩ :=
    runSource_spells hinput source asked output
  obtain ⟨n, hn, hsame⟩ :=
    (⟨m.scopes, ⟨ls, asked⟩, output⟩ : Machine Tally LineBuffer).runSource_asks source
  refine ⟨n, w, _, hlines, ?_, htext, fun zs hzs => ?_⟩
  · rw [hn] at hrest
    exact hrest
  · rw [hresult, hscopes]
    exact hsame ⟨zs, asked⟩ hzs

theorem Machine.depth_runSource {ι ο : Type} [LineSource ι] [LineSink ο] (m : Machine ι ο)
    (source : String) : (m.runSource source).2.scopes.depth = m.scopes.depth := by
  rw [runSource]
  rcases Program.ofSource source with d | p
  · rfl
  · exact (Scopes.framed_law.run p m).depth

/-! ## What the lines of a session say -/

namespace Shell

/-- A line without the white space around it. -/
def trimmed (line : String) : String :=
  String.ofList (Text.trim line.toList)

/-- A line that is neither blank nor a command is a program. -/
def IsProgram (text : String) : Prop :=
  text ≠ "" ∧ text.toList.head? ≠ some ':'

instance (text : String) : Decidable (IsProgram text) :=
  inferInstanceAs (Decidable (_ ∧ _))

/-- A line that ends the session by itself. -/
def Quits (text : String) : Prop :=
  text = ":quit" ∨ text = ":q"

instance (text : String) : Decidable (Quits text) :=
  inferInstanceAs (Decidable (_ ∨ _))

theorem not_quits_of_isProgram {text : String} (h : IsProgram text) : ¬ Quits text := by
  rintro (rfl | rfl)
  all_goals exact h.2 (by decide)

/-- The answer to a line that is no program. -/
def reply (scopes : Scopes) : (text : String) → List String
  | ":help" | ":h" | ":?" => helpLines
  | ":vars" | ":v" => varLines scopes
  | ":clear" => ["All variables cleared."]
  | "" | ":quit" | ":q" => []
  | text => ["Unknown command: " ++ text, "Type :help for help."]

end Shell

section

variable {ι ο : Type} [LineSource ι] [LineSink ο]

/-- The machine after a line: the line is run if it is a program, and it may reset the machine. -/
def Machine.heed (m : Machine ι ο) (text : String) : Machine ι ο :=
  if Shell.IsProgram text then (m.runSource text).2
  else if text = ":clear" then m.reset
  else m

theorem Machine.heed_of_isProgram (m : Machine ι ο) {text : String} (h : Shell.IsProgram text) :
    m.heed text = (m.runSource text).2 := if_pos h

/-- A command has an influence on the variables only. -/
theorem Machine.heed_of_command (m : Machine ι ο) {text : String} (h : ¬ Shell.IsProgram text) :
    m.heed text = { m with scopes := if text = ":clear" then m.scopes.reset else m.scopes } := by
  rw [heed, if_neg h]
  split <;> rfl

end

namespace Shell

/-- What a line asks for, in a session that goes on from there. -/
theorem handle_ofText (shell : Shell) {line : String}
    (htyped : Text.takeBack? line.toList = some line.toList) :
    shell.handle (.ofText line) =
      if IsProgram (trimmed line) then shell.runProgram (trimmed line)
      else
        (decide ¬ Quits (trimmed line),
          { shell with machine := shell.machine.heed (trimmed line) }.say
            (reply shell.machine.scopes (trimmed line) ++
              if Quits (trimmed line) then [farewell] else [])) := by
  have hlist : Text.trim line.toList = (trimmed line).toList := by
    rw [trimmed, String.toList_ofList]
  simp only [ShellLine.ofText, htyped, hlist, String.ofList_toList]
  generalize trimmed line = text
  split
  case h_7 | h_8 =>
    -- the variables are all that is said
    exact congrArg (fun ls => (true, shell.say ls)) (List.append_nil _).symm
  case h_10 hblank hquit hq hhelp hh hmark hvars hv hclear =>
    have hquits : ¬ Quits text := not_or.mpr ⟨hquit, hq⟩
    by_cases hcolon : text.toList.head? = some ':'
    · have hcommand : ¬ IsProgram text := fun h => h.2 hcolon
      have hreply : reply shell.machine.scopes text =
          ["Unknown command: " ++ text, "Type :help for help."] := by
        rw [reply] <;> assumption
      have hheed : shell.machine.heed text = shell.machine := by
        rw [Machine.heed, if_neg hcommand, if_neg hclear]
      simp only [hcolon, hcommand, hquits, hreply, hheed, if_true, if_false, handle,
        List.append_nil, not_false_eq_true, decide_true]
    · have hprogram : IsProgram text := ⟨hblank, hcolon⟩
      simp only [hcolon, hprogram, if_true, if_false, handle]
  all_goals rfl

-- from here on it does not matter how lines are told apart, and trying to find out is slow
attribute [irreducible] Machine.heed reply

/-! ## One line -/

theorem scopes_say (shell : Shell) (lines : List String) :
    (shell.say lines).machine.scopes = shell.machine.scopes := rfl

theorem input_say (shell : Shell) (lines : List String) :
    (shell.say lines).machine.input = shell.machine.input := rfl

theorem text_say (shell : Shell) (lines : List String) :
    (shell.say lines).machine.output.text =
      shell.machine.output.text ++ String.join (lines.map (· ++ "\n")) :=
  shell.machine.output.text_foldl_line lines

/-- What a program does in a session, next to what it does on the machine alone. -/
theorem runProgram_spec (shell : Shell) (source : String) :
    ((shell.runProgram source).1 = false ↔
      (shell.machine.runSource source).1 = .ok .exited) ∧
    (shell.runProgram source).2.machine.scopes = (shell.machine.runSource source).2.scopes ∧
    (shell.runProgram source).2.machine.input = (shell.machine.runSource source).2.input ∧
    (shell.runProgram source).2.machine.output.text =
      (shell.machine.runSource source).2.output.text ++
        String.join ((if (shell.runProgram source).1 then [] else [farewell]).map (· ++ "\n")) := by
  rw [runProgram]
  rcases shell.machine.runSource source with ⟨d | outcome, machine⟩
  · simp [report]
  · cases outcome
    · simp
    · simp [say, Transcript.line, String.append_assoc]

/-- Whatever a line asks for, only lines from the front of the input are used up. -/
theorem exists_handle_spells {shell : Shell} {ls : List String}
    (hinput : shell.machine.input.Spells ls) (request : ShellLine) :
    ∃ n, (shell.handle request).2.machine.input.Spells (ls.drop n) := by
  cases request with
  | program text =>
    obtain ⟨n, -, -, -, hrest, -⟩ := Machine.exists_runSource_eq hinput text 0 .empty
    obtain ⟨-, -, hinput', -⟩ := shell.runProgram_spec text
    refine ⟨n, ?_⟩
    rw [handle, hinput']
    exact hrest
  | _ =>
    refine ⟨0, ?_⟩
    simpa only [handle, input_say, Machine.reset, List.drop_zero] using hinput

/-- A line that a session handled, and what came of it. -/
structure Entry where
  /-- the line, as it was typed -/
  line : String
  /-- the lines that the program on it read -/
  read : List String
  /-- how often that program asked for a line -/
  asked : Nat
  /-- the lines that were written, except for a farewell -/
  written : List String

namespace Entry

/-- What the line says. -/
def text (e : Entry) : String :=
  trimmed e.line

/-- The lines of input that were used up. -/
def lines (e : Entry) : List String :=
  e.line :: e.read

/-- On this machine the line ends the session. -/
def Ends {ι ο : Type} [LineSource ι] [LineSink ο] (m : Machine ι ο) (e : Entry) : Prop :=
  Quits e.text ∨ IsProgram e.text ∧ (m.runSource e.text).1 = .ok .exited

end Entry

/-- A machine with the variables of the session. -/
def reference (shell : Shell) (input : Tally) (output : LineBuffer) : Machine Tally LineBuffer :=
  ⟨shell.machine.scopes, input, output⟩

/-- The entry tells what comes of its line: in the session, and on every reference machine whose
input begins as that of the session does. The session has the lines `ls` before it, and `result` is
what handling the line came to. -/
structure Entry.Tells (shell : Shell) (ls : List String) (asked : Nat)
    (output output' : LineBuffer) (result : Bool × Shell) (e : Entry) : Prop where
  /-- the program got as many lines as it asked for, or all -/
  read_eq : e.read = ls.take e.asked
  /-- the reference machine behind the line -/
  heed_eq : ∀ zs, zs.take e.asked = ls.take e.asked →
    (shell.reference ⟨zs, asked⟩ output).heed e.text =
      result.2.reference ⟨zs.drop e.asked, asked + e.asked⟩ output'
  /-- whether the session ends -/
  ends_iff : ∀ zs, zs.take e.asked = ls.take e.asked →
    (e.Ends (shell.reference ⟨zs, asked⟩ output) ↔ result.1 = false)
  /-- what a program writes -/
  program : IsProgram e.text → output'.lines = output.lines ++ e.written
  /-- what a command writes -/
  command : ¬ IsProgram e.text → e.written = reply shell.machine.scopes e.text
  /-- no frame is left over -/
  depth : result.2.machine.scopes.depth = 1
  /-- the lines that are left -/
  input : result.2.machine.input.Spells (ls.drop e.asked)
  /-- what the session wrote -/
  output : result.2.machine.output.text = shell.machine.output.text ++
    String.join ((e.written ++ if result.1 then [] else [farewell]).map (· ++ "\n"))

section

variable {shell : Shell} {line : String} {ls : List String} (asked : Nat) (output : LineBuffer)

/-- A program, and the lines that it asks for. -/
theorem exists_tells_program (hdepth : shell.machine.scopes.depth = 1)
    (hinput : shell.machine.input.Spells ls) (hprogram : IsProgram (trimmed line)) :
    ∃ (e : Entry) (output' : LineBuffer), e.line = line ∧
      e.Tells shell ls asked output output' (shell.runProgram (trimmed line)) := by
  obtain ⟨n, w, output', hlines, hrest, htext, hrun⟩ :=
    Machine.exists_runSource_eq hinput (trimmed line) asked output
  obtain ⟨hends, hscopes, hinput', houtput⟩ := shell.runProgram_spec (trimmed line)
  refine ⟨⟨line, ls.take n, n, w⟩, output', rfl, rfl, fun zs hzs => ?_, fun zs hzs => ?_,
    fun _ => hlines, absurd hprogram, ?_, ?_, ?_⟩
  · rw [Entry.text, Machine.heed_of_isProgram _ hprogram, reference, hrun zs hzs, reference,
      hscopes]
  · have hquits := not_quits_of_isProgram hprogram
    rw [hends, Entry.Ends, Entry.text, reference, hrun zs hzs]
    simp [hquits, hprogram]
  · rw [hscopes, Machine.depth_runSource]
    exact hdepth
  · rw [hinput']
    exact hrest
  · rw [houtput, htext, List.map_append, String.join_append, String.append_assoc]

/-- A command, which asks for nothing. -/
theorem exists_tells_command (hdepth : shell.machine.scopes.depth = 1)
    (hinput : shell.machine.input.Spells ls) (hcommand : ¬ IsProgram (trimmed line)) :
    ∃ e : Entry, e.line = line ∧ e.Tells shell ls asked output output
      (decide ¬ Quits (trimmed line),
        { shell with machine := shell.machine.heed (trimmed line) }.say
          (reply shell.machine.scopes (trimmed line) ++
            if Quits (trimmed line) then [farewell] else [])) := by
  rw [Machine.heed_of_command _ hcommand]
  refine ⟨⟨line, [], 0, reply shell.machine.scopes (trimmed line)⟩, rfl, rfl, fun zs _ => ?_,
    fun zs _ => ?_, fun h => absurd h hcommand, fun _ => rfl, ?_, ?_, ?_⟩
  · rw [Entry.text, Machine.heed_of_command _ hcommand]
    simp only [reference, scopes_say, List.drop_zero, Nat.add_zero]
  · simp [Entry.Ends, Entry.text, hcommand]
  · rw [scopes_say]
    dsimp only
    split
    · rfl
    · exact hdepth
  · rw [input_say]
    exact hinput
  · rw [text_say]
    by_cases hquits : Quits (trimmed line) <;> simp [hquits]

/-- **The first line is told.** -/
theorem exists_tells (hdepth : shell.machine.scopes.depth = 1)
    (hinput : shell.machine.input.Spells (line :: ls))
    (htyped : Text.takeBack? line.toList = some line.toList) :
    ∃ (e : Entry) (output' : LineBuffer), e.line = line ∧
      e.Tells shell ls asked output output' shell.step := by
  obtain ⟨input, hnext, hspells⟩ := hinput.exists_next_cons
  let taken : Shell := { shell with machine := { shell.machine with input } }
  have hstep : shell.step = taken.handle (.ofText line) := by rw [step, hnext]
  have htells : ∃ (e : Entry) (output' : LineBuffer), e.line = line ∧
      e.Tells taken ls asked output output' shell.step := by
    rw [hstep, handle_ofText _ htyped]
    by_cases hprogram : IsProgram (trimmed line)
    · rw [if_pos hprogram]
      exact exists_tells_program asked output hdepth hspells hprogram
    · rw [if_neg hprogram]
      obtain ⟨e, he, htells⟩ : ∃ e : Entry, e.line = line ∧
          e.Tells taken ls asked output output _ :=
        exists_tells_command asked output hdepth hspells hprogram
      exact ⟨e, output, he, htells⟩
  -- taking the line changes the input only
  obtain ⟨e, output', he, h⟩ := htells
  exact ⟨e, output', he, ⟨h.read_eq, h.heed_eq, h.ends_iff, h.program, h.command, h.depth, h.input,
    h.output⟩⟩

end

end Shell

end Scriptling

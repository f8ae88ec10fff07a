import Scriptling.Proofs.Grammar.Completeness
import Scriptling.Proofs.Interpreter.Reached
import Scriptling.Proofs.Shell.Line

/-!
# The account of a session

A session and its programs take lines from one input. Which lines are programs, and which ones are
read by programs, turns out only as the session goes on. When it is over it can be accounted for:
by the lines that it handled, each with the lines that the program on it read (`Shell.Account`).

With the account, the session can be followed on a machine that knows nothing of sessions
(`Machine.heedAll`). The machine runs the programs in order, whatever they come to, and is reset
where the session is. Its input has the lines that programs read and no others. Behind every line
it has the variables of the session, and the session has only the global frame.

An account is made from the front: behind its first line, a session is one that goes on from there
(`Shell.Account.next`). What the later programs read is not known yet when the first line is
handled, but a program that gets all the lines it asks for does not mind what is behind them. One
that asks for too many has used up the input, and then nothing comes later.
-/

namespace Scriptling

section

variable {ι ο : Type} [LineSource ι] [LineSink ο]

/-- The machine after the lines of entries. -/
def Machine.heedAll (m : Machine ι ο) (entries : List Shell.Entry) : Machine ι ο :=
  entries.foldl (fun m e => m.heed e.text) m

@[simp] theorem Machine.heedAll_nil (m : Machine ι ο) : m.heedAll [] = m := rfl

@[simp] theorem Machine.heedAll_cons (m : Machine ι ο) (e : Shell.Entry)
    (entries : List Shell.Entry) :
    m.heedAll (e :: entries) = (m.heed e.text).heedAll entries := rfl

end

namespace Shell

/-- The session after its next `k` lines. Lines that programs read do not count. -/
def after (shell : Shell) : (k : Nat) → Shell
  | 0 => shell
  | k + 1 => shell.step.2.after k

/-! ## What an account says -/

/-- The session and the reference machine are at the same point: with these entries still to come,
and with `rest` left over behind them. -/
structure Agrees (shell : Shell) (m : Machine Tally LineBuffer) (entries : List Entry)
    (rest : List String) : Prop where
  /-- the same variables -/
  scopes : shell.machine.scopes = m.scopes
  /-- and no frame but the global one -/
  depth : m.scopes.depth = 1
  /-- the session has all lines to come before it -/
  input : shell.machine.input.Spells (entries.flatMap Entry.lines ++ rest)
  /-- the reference machine has those that programs will read -/
  data : m.input.rest = entries.flatMap Entry.read

/-- The entry is right about its line on the reference machine. Behind it come `later` entries, and
`rest` is left over. -/
structure Entry.Holds (m : Machine Tally LineBuffer) (later : List Entry) (rest : List String)
    (e : Entry) : Prop where
  /-- this is how often the program asked for a line -/
  asked : (m.heed e.text).input.asked = m.input.asked + e.asked
  /-- each time it got one, unless all lines had been used up -/
  answered : e.read.length = e.asked ∨ e.read.length < e.asked ∧ later = [] ∧ rest = []
  /-- this is what a program wrote -/
  program : IsProgram e.text → (m.heed e.text).output.lines = m.output.lines ++ e.written
  /-- this is the answer to a command -/
  command : ¬ IsProgram e.text → e.written = reply m.scopes e.text
  /-- a line that ends the session is the last one -/
  last : e.Ends m → later = []

/-- The last of the entries ends the session. -/
def EndsBy (m : Machine Tally LineBuffer) (entries : List Entry) : Prop :=
  ∃ before e, entries = before ++ [e] ∧ e.Ends (m.heedAll before)

/-- The account of a session that went from `shell` to `final`: its entries, and the lines that
were left over. The reference machine `m` has the variables of the session, and as its input the
lines that programs read, without any others between them. -/
structure Account (shell : Shell) (m : Machine Tally LineBuffer) (entries : List Entry)
    (rest : List String) (final : Shell) : Prop where
  /-- after any number of lines, session and machine agree -/
  agrees : ∀ before later, entries = before ++ later →
    (shell.after before.length).Agrees (m.heedAll before) later rest
  /-- every entry is right -/
  holds : ∀ before e later, entries = before ++ e :: later → e.Holds (m.heedAll before) later rest
  /-- the session ended with the last entry, or it found no line behind it -/
  ending : EndsBy m entries ∧ final = shell.after entries.length ∨
    ¬ EndsBy m entries ∧ rest = [] ∧ final = shell.after (entries.length + 1)
  /-- what was written: by the entries in order, and then the farewell -/
  output : final.machine.output.text = shell.machine.output.text ++
    String.join ((entries.flatMap Entry.written ++ [farewell]).map (· ++ "\n"))

/-! ## Accounts from the front -/

/-- Where no line is left, the session ends. -/
theorem Account.finished {shell : Shell} (hdepth : shell.machine.scopes.depth = 1)
    (hinput : shell.machine.input.Spells []) (asked : Nat) (output : LineBuffer) :
    shell.step.1 = false ∧
      Account shell (shell.reference ⟨[], asked⟩ output) [] [] shell.step.2 := by
  have hstep : shell.step = (false, shell.say [farewell]) := by
    rw [step, hinput.next_nil]
  refine ⟨by rw [hstep], ⟨fun before later h => ?_, fun before e later h => ?_, ?_, ?_⟩⟩
  · obtain ⟨rfl, rfl⟩ := List.append_eq_nil_iff.mp h.symm
    exact ⟨rfl, hdepth, hinput, rfl⟩
  · simp at h
  · refine Or.inr ⟨?_, rfl, rfl⟩
    rintro ⟨before, e, h, -⟩
    simp at h
  · rw [hstep, text_say]
    rfl

section

variable {shell : Shell} {ls : List String} {asked : Nat} {output output' : LineBuffer}
  {e : Entry} {entries : List Entry} {rest : List String}

/-- The lines that the program on the first line reads, in front of those for the other programs,
begin as the lines of the session do, as far as it asks. -/
theorem Entry.Tells.begins {result : Bool × Shell}
    (h : e.Tells shell ls asked output output' result)
    (hls : ls.drop e.asked = entries.flatMap Entry.lines ++ rest) :
    (e.read ++ entries.flatMap Entry.read).take e.asked = ls.take e.asked ∧
      (e.read ++ entries.flatMap Entry.read).drop e.asked = entries.flatMap Entry.read ∧
      (e.read.length = e.asked ∨ e.read.length < e.asked ∧ entries = [] ∧ rest = []) := by
  rw [h.read_eq]
  by_cases hasked : e.asked ≤ ls.length
  · have hlength : (ls.take e.asked).length = e.asked := List.length_take_of_le hasked
    exact ⟨List.take_left' hlength, List.drop_left' hlength, Or.inl hlength⟩
  · -- the program asked in vain, so nothing is left behind it
    have hlt : ls.length < e.asked := by omega
    rw [List.drop_eq_nil_of_le hlt.le, eq_comm, List.append_eq_nil_iff] at hls
    obtain ⟨hentries, rfl⟩ := hls
    obtain rfl : entries = [] := by
      cases entries with
      | nil => rfl
      | cons e' entries => simp [Entry.lines] at hentries
    have hall : ls.take e.asked = ls := List.take_of_length_le hlt.le
    refine ⟨?_, ?_, Or.inr ⟨by rwa [hall], rfl, rfl⟩⟩
    · simp [hall]
    · simp [hall, hlt.le]

variable (h : e.Tells shell ls asked output output' shell.step)
  (hls : ls.drop e.asked = entries.flatMap Entry.lines ++ rest)

include h hls

theorem Entry.Tells.heed_reference :
    (shell.reference ⟨(e :: entries).flatMap Entry.read, asked⟩ output).heed e.text =
      shell.step.2.reference ⟨entries.flatMap Entry.read, asked + e.asked⟩ output' := by
  obtain ⟨htake, hdrop, -⟩ := h.begins hls
  rw [List.flatMap_cons, h.heed_eq _ htake, hdrop]

theorem Entry.Tells.ends_reference :
    e.Ends (shell.reference ⟨(e :: entries).flatMap Entry.read, asked⟩ output) ↔
      shell.step.1 = false :=
  h.ends_iff _ (h.begins hls).1

/-- What is told of the first line is right on the reference machine. -/
theorem Entry.Tells.holds (hlast : shell.step.1 = false → entries = []) :
    e.Holds (shell.reference ⟨(e :: entries).flatMap Entry.read, asked⟩ output) entries rest where
  asked := by
    rw [h.heed_reference hls]
    rfl
  answered := (h.begins hls).2.2
  program hprogram := by
    rw [h.heed_reference hls]
    exact h.program hprogram
  command := h.command
  last hends := hlast ((h.ends_reference hls).mp hends)

omit h in
/-- Before the first line, session and machine agree. -/
theorem Entry.agrees (hread : e.read = ls.take e.asked)
    (hdepth : shell.machine.scopes.depth = 1)
    (hinput : shell.machine.input.Spells (e.line :: ls)) :
    shell.Agrees (shell.reference ⟨(e :: entries).flatMap Entry.read, asked⟩ output)
      (e :: entries) rest where
  scopes := rfl
  depth := hdepth
  input := by
    have hlines : e.line :: ls = (e :: entries).flatMap Entry.lines ++ rest := by
      rw [List.flatMap_cons, List.append_assoc, ← hls, Entry.lines, hread, List.cons_append,
        List.take_append_drop]
    rwa [← hlines]
  data := rfl

omit h hls in
theorem endsBy_singleton {m : Machine Tally LineBuffer} : EndsBy m [e] ↔ e.Ends m := by
  constructor
  · rintro ⟨before, e', heq, hends⟩
    obtain ⟨rfl, heq'⟩ | ⟨rfl, heq'⟩ := List.singleton_eq_append_iff.mp heq
    · obtain rfl := List.singleton_inj.mp heq'
      exact hends
    · cases heq'
  · exact fun hends => ⟨[], e, rfl, hends⟩

omit h hls in
/-- A session that does not end with the first line ends with a later one or not at all. -/
theorem endsBy_cons {m : Machine Tally LineBuffer} (hends : ¬ e.Ends m) :
    EndsBy m (e :: entries) ↔ EndsBy (m.heed e.text) entries := by
  constructor
  · rintro ⟨_ | ⟨e', before⟩, e'', heq, hlast⟩
    · obtain ⟨rfl, -⟩ := List.cons_eq_cons.mp heq
      exact absurd hlast hends
    · obtain ⟨rfl, rfl⟩ := List.cons_eq_cons.mp heq
      exact ⟨before, e'', rfl, hlast⟩
  · rintro ⟨before, e', rfl, hlast⟩
    exact ⟨e :: before, e', rfl, hlast⟩

omit hls in
/-- The session ends with the first line. -/
theorem Account.ended (hdepth : shell.machine.scopes.depth = 1)
    (hinput : shell.machine.input.Spells (e.line :: ls)) (hstep : shell.step.1 = false) :
    Account shell (shell.reference ⟨[e].flatMap Entry.read, asked⟩ output) [e]
      (ls.drop e.asked) shell.step.2 where
  agrees before later heq := by
    have hls : ls.drop e.asked = [].flatMap Entry.lines ++ ls.drop e.asked := rfl
    rcases before with _ | ⟨e', before⟩
    · obtain rfl : [e] = later := heq
      exact Entry.agrees hls h.read_eq hdepth hinput
    · obtain ⟨rfl, hnil⟩ := List.cons_eq_cons.mp heq
      obtain ⟨rfl, rfl⟩ := List.append_eq_nil_iff.mp hnil.symm
      rw [Machine.heedAll_cons, Machine.heedAll_nil, h.heed_reference hls]
      exact ⟨rfl, h.depth, h.input, rfl⟩
  holds before e' later heq := by
    obtain ⟨rfl, rfl, rfl⟩ : before = [] ∧ e = e' ∧ later = [] := by
      rcases before with _ | ⟨e'', before⟩
      · obtain ⟨rfl, rfl⟩ := List.cons_eq_cons.mp heq
        exact ⟨rfl, rfl, rfl⟩
      · simp at heq
    exact h.holds rfl fun _ => rfl
  ending := Or.inl ⟨endsBy_singleton.mpr ((h.ends_reference rfl).mpr hstep), rfl⟩
  output := by
    rw [h.output, hstep]
    simp

/-- The session goes on behind the first line. -/
theorem Account.next {final : Shell} (hdepth : shell.machine.scopes.depth = 1)
    (hinput : shell.machine.input.Spells (e.line :: ls)) (hstep : shell.step.1 = true)
    (hrest : Account shell.step.2
      (shell.step.2.reference ⟨entries.flatMap Entry.read, asked + e.asked⟩ output')
      entries rest final) :
    Account shell (shell.reference ⟨(e :: entries).flatMap Entry.read, asked⟩ output) (e :: entries)
      rest final := by
  rw [← h.heed_reference hls] at hrest
  have hends := mt (h.ends_reference hls).mp (by simp [hstep])
  refine ⟨fun before later heq => ?_, fun before e' later heq => ?_, ?_, ?_⟩
  · rcases before with _ | ⟨e', before⟩
    · obtain rfl : e :: entries = later := heq
      exact Entry.agrees hls h.read_eq hdepth hinput
    · obtain ⟨rfl, htail⟩ := List.cons_eq_cons.mp heq
      rw [Machine.heedAll_cons]
      exact hrest.agrees before later htail
  · rcases before with _ | ⟨e'', before⟩
    · obtain ⟨rfl, rfl⟩ := List.cons_eq_cons.mp heq
      exact h.holds hls (by simp [hstep])
    · obtain ⟨rfl, htail⟩ := List.cons_eq_cons.mp heq
      rw [Machine.heedAll_cons]
      exact hrest.holds before e' later htail
  · rw [endsBy_cons hends]
    exact hrest.ending
  · rw [hrest.output, h.output, hstep]
    simp [String.append_assoc]

end

/-! ## Sessions -/

theorem loop_succ (fuel : Nat) (shell : Shell) :
    loop (fuel + 1) shell = if shell.step.1 then loop fuel shell.step.2 else shell.step.2 := by
  rw [loop]
  rcases shell.step with ⟨_ | _, shell'⟩ <;> rfl

/-- The lines that a session takes, at most `fuel` of them. Those that programs read are not among
them. -/
def handled : (fuel : Nat) → Shell → List String
  | 0, _ => []
  | fuel + 1, shell =>
    match shell.machine.input.next.1 with
    | .line line => line :: if shell.step.1 then handled fuel shell.step.2 else []
    | _ => []

theorem handled_cons {shell : Shell} {line : String} {ls : List String}
    (hinput : shell.machine.input.Spells (line :: ls)) (fuel : Nat) :
    handled (fuel + 1) shell =
      line :: if shell.step.1 then handled fuel shell.step.2 else [] := by
  obtain ⟨input, hnext, -⟩ := hinput.exists_next_cons
  rw [handled, hnext]

/-- The lines that a session takes are lines of its input. -/
theorem handled_subset {shell : Shell} {ls : List String}
    (hinput : shell.machine.input.Spells ls) (fuel : Nat) : handled fuel shell ⊆ ls := by
  induction fuel generalizing shell ls with
  | zero => exact List.nil_subset _
  | succ fuel ih =>
    cases ls with
    | nil =>
      rw [handled, hinput.next_nil]
      exact List.nil_subset _
    | cons line ls =>
      obtain ⟨input, hnext, hspells⟩ := hinput.exists_next_cons
      obtain ⟨n, hrest⟩ : ∃ n, shell.step.2.machine.input.Spells (ls.drop n) := by
        rw [step, hnext]
        exact exists_handle_spells hspells (.ofText line)
      rw [handled_cons hinput]
      apply List.cons_subset_cons
      split
      · exact List.Subset.trans (ih hrest) (List.drop_subset n ls)
      · exact List.nil_subset _

/-- Sessions that go on until they end can be accounted for. -/
theorem exists_account {fuel : Nat} {shell : Shell} {ls : List String} (hfuel : ls.length < fuel)
    (hdepth : shell.machine.scopes.depth = 1) (hinput : shell.machine.input.Spells ls)
    (htyped : ∀ line ∈ handled fuel shell, Text.takeBack? line.toList = some line.toList)
    (asked : Nat) (output : LineBuffer) :
    ∃ (entries : List Entry) (rest : List String), ls = entries.flatMap Entry.lines ++ rest ∧
      Account shell (shell.reference ⟨entries.flatMap Entry.read, asked⟩ output) entries rest
        (loop fuel shell) := by
  induction fuel generalizing shell ls asked output with
  | zero => omega
  | succ fuel ih =>
    rw [loop_succ]
    cases ls with
    | nil =>
      obtain ⟨hstep, haccount⟩ := Account.finished hdepth hinput asked output
      rw [hstep]
      exact ⟨[], [], rfl, haccount⟩
    | cons line ls =>
      rw [handled_cons hinput] at htyped
      obtain ⟨hline, hlines⟩ := List.forall_mem_cons.mp htyped
      obtain ⟨e, output', rfl, h⟩ := exists_tells asked output hdepth hinput hline
      have hread : e.line :: ls = e.lines ++ ls.drop e.asked := by
        rw [Entry.lines, h.read_eq, List.cons_append, List.take_append_drop]
      rcases hstep : shell.step.1 with _ | _
      · refine ⟨[e], ls.drop e.asked, ?_, Account.ended h hdepth hinput hstep⟩
        simpa using hread
      · have hshorter : (ls.drop e.asked).length < fuel := by
          rw [List.length_cons] at hfuel
          rw [List.length_drop]
          omega
        rw [hstep, if_pos rfl] at hlines
        obtain ⟨entries, rest, hls, haccount⟩ :=
          ih hshorter h.depth h.input hlines (asked + e.asked) output'
        refine ⟨e :: entries, rest, ?_, .next h hls hdepth hinput hstep haccount⟩
        rw [hread, hls, List.flatMap_cons, List.append_assoc]

/-- The session on some input before its first line. -/
def opened (stdin : List UInt8) (listing : Listing) : Shell :=
  { machine := .start ⟨stdin⟩ .empty listing, reports := [] : Shell }.say banner

/-- **Sessions use every line once.** The input is any text. The lines that the session takes from
it are handed on by the editor as they are.

The lines of the text are, from left to right, those of the entries: each time the line that the
session handled, and then the lines that the program on it read, one for each time that it asked.
Behind these come the lines that were left over when the session ended. After every entry the
session has the variables of a machine that ran the programs so far in order, those that failed
among them, and was reset where the session was. This, and what it was that ended the session, is
in the account. Written were the banner, what the entries wrote, and the farewell. -/
theorem session_account {stdin : List UInt8} {text : String} (listing : Listing)
    (htext : Text.decode? stdin = some text)
    (htyped : ∀ line ∈ handled (stdin.length + 1) (opened stdin listing),
      Text.takeBack? line.toList = some line.toList) :
    ∃ (entries : List Entry) (rest : List String),
      Text.lines text = entries.flatMap Entry.lines ++ rest ∧
      Account (opened stdin listing) (.start ⟨entries.flatMap Entry.read, 0⟩ .empty listing)
        entries rest (session stdin listing) ∧
      (session stdin listing).machine.output.text =
        String.join ((banner ++ entries.flatMap Entry.written ++ [farewell]).map (· ++ "\n")) := by
  obtain rfl := Text.decode?_eq_some_iff.mp htext
  have hinput : (opened (Text.encode text) listing).machine.input.Spells (Text.lines text) :=
    ⟨text, rfl, rfl⟩
  obtain ⟨entries, rest, hlines, haccount⟩ :=
    exists_account (Nat.lt_succ_of_le hinput.length_le) rfl hinput htyped 0 .empty
  refine ⟨entries, rest, hlines, haccount, ?_⟩
  have hbanner : (opened (Text.encode text) listing).machine.output.text =
      String.join (banner.map (· ++ "\n")) := by
    rw [opened, text_say]
    exact String.empty_append
  rw [List.append_assoc, List.map_append, String.join_append, ← hbanner]
  exact haccount.output

/-! ## An account, read from the front -/

section

variable {shell final : Shell} {m : Machine Tally LineBuffer} {entries later : List Entry}
  {rest ls : List String} {line : String} {e : Entry}

/-- While there are lines and the session has not been ended, there is an entry for the next
line. -/
theorem Account.exists_entry (h : Account shell m entries rest final) (before : List Entry)
    (hentries : entries = before ++ later)
    (hline : later.flatMap Entry.lines ++ rest = line :: ls) (hends : ¬ EndsBy m before) :
    ∃ e later', later = e :: later' ∧ e.line = line ∧
      e.read ++ (later'.flatMap Entry.lines ++ rest) = ls := by
  cases later with
  | nil =>
    rw [List.append_nil] at hentries
    subst hentries
    obtain ⟨hends', -⟩ | ⟨-, rfl, -⟩ := h.ending
    · exact absurd hends' hends
    · cases hline
  | cons e later =>
    rw [List.flatMap_cons, Entry.lines, List.append_assoc, List.cons_append] at hline
    obtain ⟨hline, hls⟩ := List.cons_eq_cons.mp hline
    exact ⟨e, later, rfl, hline, hls⟩

/-- A program reads as many lines as it asks for, if there are so many. -/
theorem Entry.Holds.read_eq_take (h : e.Holds m later rest)
    (hls : e.read ++ (later.flatMap Entry.lines ++ rest) = ls) (hasked : e.asked ≤ ls.length) :
    e.read = ls.take e.asked ∧ later.flatMap Entry.lines ++ rest = ls.drop e.asked := by
  have hlength : e.read.length = e.asked := by
    obtain hread | ⟨hlt, rfl, rfl⟩ := h.answered
    · exact hread
    · -- there would be no line left that it did not get
      simp [← hls] at hasked
      omega
  subst hls
  exact ⟨(List.take_left' hlength).symm, (List.drop_left' hlength).symm⟩

theorem endsBy_concat (before : List Entry) :
    EndsBy m (before ++ [e]) ↔ e.Ends (m.heedAll before) := by
  constructor
  · rintro ⟨before', e', heq, hends⟩
    obtain ⟨rfl, he⟩ := List.append_inj' heq rfl
    obtain rfl := List.singleton_inj.mp he
    exact hends
  · exact fun hends => ⟨before, e, rfl, hends⟩

/-- The next line, if it leaves the input alone: no line is read for it. -/
theorem Account.exists_idle (h : Account shell m entries rest final) (before : List Entry)
    (hentries : entries = before ++ later)
    (hline : later.flatMap Entry.lines ++ rest = line :: ls) (hends : ¬ EndsBy m before)
    (hidle : ∀ m' : Machine Tally LineBuffer, (m'.heed (trimmed line)).input = m'.input) :
    ∃ e later', later = e :: later' ∧ e.line = line ∧ e.read = [] ∧
      later'.flatMap Entry.lines ++ rest = ls := by
  obtain ⟨e, later', rfl, rfl, hls⟩ := h.exists_entry before hentries hline hends
  have hholds := h.holds before e later' hentries
  have hasked : e.asked = 0 := by
    have hcount := hholds.asked
    rw [Entry.text, hidle] at hcount
    omega
  obtain ⟨hread, hrest⟩ := hholds.read_eq_take hls (by omega)
  rw [hasked] at hread hrest
  exact ⟨e, later', rfl, rfl, hread, hrest⟩

/-- The next line, if it leaves the input alone and does not end the session. -/
theorem Account.exists_passing (h : Account shell m entries rest final) (before : List Entry)
    (hentries : entries = before ++ later)
    (hline : later.flatMap Entry.lines ++ rest = line :: ls) (hends : ¬ EndsBy m before)
    (hidle : ∀ m' : Machine Tally LineBuffer, (m'.heed (trimmed line)).input = m'.input)
    (hgoing : ∀ (e : Entry) (m' : Machine Tally LineBuffer), e.line = line → ¬ e.Ends m') :
    ∃ e later', later = e :: later' ∧ (e.line, e.read) = (line, []) ∧
      later'.flatMap Entry.lines ++ rest = ls ∧ ¬ EndsBy m (before ++ [e]) := by
  obtain ⟨e, later', hlater, heline, hread, hls⟩ := h.exists_idle before hentries hline hends hidle
  exact ⟨e, later', hlater, by rw [heline, hread], hls,
    mt (endsBy_concat before).mp (hgoing e _ heline)⟩

end

/-- A program of one assignment. -/
theorem ofSource_readInt :
    Program.ofSource "x:=readint()" = .ok ⟨[.assign ⟨0, 12⟩ "x" (.readInt ⟨3, 12⟩)]⟩ := by
  have hscan : scan "x:=readint()".toList = .ok [⟨.name "x", ⟨0, 1⟩⟩, ⟨.mark .assign, ⟨1, 3⟩⟩,
      ⟨.word .readint, ⟨3, 10⟩⟩, ⟨.mark .lparen, ⟨10, 11⟩⟩, ⟨.mark .rparen, ⟨11, 12⟩⟩] := by
    with_unfolding_all rfl
  have hcall := Spells.reduce .readInt (.token ⟨.word .readint, ⟨3, 10⟩⟩
    (.token ⟨.mark .lparen, ⟨10, 11⟩⟩ (.single ⟨.mark .rparen, ⟨11, 12⟩⟩)))
  have hcompare := Spells.reduce .compareSum (.reduce .sumProduct (.reduce .productUnary
    (.reduce .unaryPrimary hcall)))
  have hexpr := Spells.reduce .expr (.reduce .orAnd (.reduce .andCompare hcompare))
  have hassign := Spells.reduce .assign (.token ⟨.name "x", ⟨0, 1⟩⟩
    (.token ⟨.mark .assign, ⟨1, 3⟩⟩ hexpr))
  have hstmt := Spells.reduce .anyClosed (.reduce .simple hassign)
  have hprogram := Spells.reduce .program (.reduce .stmtsOnly (.reduce .firstStmt hstmt))
  exact Program.ofSource_eq_ok_iff.mpr ⟨_, hscan, Program.ofTokens_of_spelledBy hprogram⟩

/-- It asks for one line, whatever comes of it. -/
theorem asked_runSource_readInt (m : Machine Tally LineBuffer) :
    (m.runSource "x:=readint()").2.input.asked = m.input.asked + 1 := by
  have hvalue : ((Eval.toStore m.scopes (.readInt ⟨3, 12⟩) : Eval Tally Value).run m.input).2 =
      m.input.skip 1 := by
    rw [Eval.toStore, eval, run_bind, run_bind, readLine_run, Tally.next_snd]
    rcases (LineSource.next m.input).1 with line | why | _
    · simp only [integerOfLine]
      rcases Text.readInt? _ with _ | _ <;> rfl
    · rfl
    · rfl
  have hbody : ((runAll [.assign ⟨0, 12⟩ "x" (.readInt ⟨3, 12⟩)] :
      Exec Tally LineBuffer Outcome).run m).2.input.asked = m.input.asked + 1 := by
    rw [runAll, run_bind, run_exec_assign]
    rcases hrun : (Eval.toStore m.scopes (.readInt ⟨3, 12⟩) : Eval Tally Value).run m.input with
      ⟨f | v, input⟩
    all_goals
      rw [hrun] at hvalue
      obtain rfl : input = m.input.skip 1 := hvalue
    · rfl
    · simp only
      rcases m.scopes.assign "x" v with f | scopes <;> rfl
  rw [Machine.runSource, ofSource_readInt]
  exact hbody

/-- It is completed if the next line is a number. -/
theorem runSource_readInt_completed (ls : List String) :
    ((Machine.start ⟨"7" :: ls, 0⟩ .empty : Machine Tally LineBuffer).runSource
      "x:=readint()").1 = .ok .completed := by
  rw [Machine.runSource, ofSource_readInt]
  with_unfolding_all rfl

/-- A session that begins with it takes the second line for it, and goes on behind the number. -/
theorem Account.exists_readInt {shell final : Shell} {entries : List Entry} {rest ls : List String}
    (h : Account shell (.start ⟨entries.flatMap Entry.read, 0⟩ .empty) entries rest final)
    (hlines : entries.flatMap Entry.lines ++ rest = "x:=readint()" :: "7" :: ls) :
    ∃ e later, entries = e :: later ∧ (e.line, e.read) = ("x:=readint()", ["7"]) ∧
      later.flatMap Entry.lines ++ rest = ls ∧
      ¬ EndsBy (.start ⟨entries.flatMap Entry.read, 0⟩ .empty) [e] := by
  have hstart : ¬ EndsBy (.start ⟨entries.flatMap Entry.read, 0⟩ .empty) [] := by
    rintro ⟨before, e, hnil, -⟩
    simp at hnil
  obtain ⟨e, later, rfl, hline, hls⟩ := h.exists_entry [] rfl hlines hstart
  have htext : e.text = "x:=readint()" := by
    rw [Entry.text, hline]
    decide
  have hprogram : IsProgram e.text := by
    rw [htext]
    decide
  have hholds := h.holds [] e later rfl
  have hasked : e.asked = 1 := by
    have hcount := hholds.asked
    rw [Machine.heed_of_isProgram _ hprogram, htext, asked_runSource_readInt] at hcount
    omega
  obtain ⟨hread, hrest⟩ := hholds.read_eq_take hls (by simp [hasked])
  rw [hasked] at hread hrest
  refine ⟨e, later, rfl, by rw [hline, hread]; rfl, hrest, ?_⟩
  rw [endsBy_singleton]
  rintro (hquits | ⟨-, hexited⟩)
  · exact not_quits_of_isProgram hprogram hquits
  · rw [htext, List.flatMap_cons, hread] at hexited
    cases hexited.symm.trans (runSource_readInt_completed _)

/-- Its first character that begins no token stops this line. -/
theorem runSource_strayChar (m : Machine Tally LineBuffer) :
    m.runSource "x:=#" = (.error (.scan ⟨.strayChar '#', ⟨3, 4⟩⟩), m) := by
  have hsource : Program.ofSource "x:=#" = .error (.scan ⟨.strayChar '#', ⟨3, 4⟩⟩) := by
    with_unfolding_all rfl
  rw [Machine.runSource, hsource]

/-- The account of a session on a program that reads a number, a line that is no program, two
commands and a further line: the second command ends it. -/
theorem Account.entries_eq {shell final : Shell} {entries : List Entry} {rest : List String}
    (h : Account shell (.start ⟨entries.flatMap Entry.read, 0⟩ .empty) entries rest final)
    (hlines : entries.flatMap Entry.lines ++ rest =
      ["x:=readint()", "7", "x:=#", ":clear", ":q", "x"]) :
    entries.map (fun e => (e.line, e.read)) =
      [("x:=readint()", ["7"]), ("x:=#", []), (":clear", []), (":q", [])] ∧ rest = ["x"] := by
  obtain ⟨e₁, later₁, rfl, he₁, hrest₁, hends₁⟩ := h.exists_readInt hlines
  -- a line that is no program asks for nothing and does not run
  have htrim₂ : trimmed "x:=#" = "x:=#" := by decide
  obtain ⟨e₂, later₂, rfl, he₂, hrest₂, hends₂⟩ :=
    h.exists_passing [e₁] rfl hrest₁ hends₁
      (fun m => by rw [htrim₂, Machine.heed_of_isProgram _ (by decide), runSource_strayChar])
      (fun e m he => by
        rw [Entry.Ends, Entry.text, he, htrim₂, runSource_strayChar]
        rintro (hquits | ⟨-, hexited⟩)
        · exact absurd hquits (by decide)
        · cases hexited)
  have htrim₃ : trimmed ":clear" = ":clear" := by decide
  obtain ⟨e₃, later₃, rfl, he₃, hrest₃, hends₃⟩ :=
    h.exists_passing [e₁, e₂] rfl hrest₂ hends₂
      (fun m => by rw [htrim₃, Machine.heed_of_command _ (by decide)])
      (fun e m he => by
        rw [Entry.Ends, Entry.text, he, htrim₃]
        rintro (hquits | ⟨hprogram, -⟩)
        · exact absurd hquits (by decide)
        · exact absurd hprogram (by decide))
  have htrim₄ : trimmed ":q" = ":q" := by decide
  obtain ⟨e₄, later₄, rfl, hline₄, hread₄, hrest₄⟩ :=
    h.exists_idle [e₁, e₂, e₃] rfl hrest₃ hends₃ fun m => by
      rw [htrim₄, Machine.heed_of_command _ (by decide)]
  obtain rfl := (h.holds [e₁, e₂, e₃] e₄ later₄ rfl).last (Or.inl (by
    rw [Entry.text, hline₄, htrim₄]
    decide))
  exact ⟨by simp only [List.map_cons, List.map_nil, he₁, he₂, he₃, hline₄, hread₄], hrest₄⟩

/-- A number for the first line, a line that is no program, and lines behind the end. The number
goes to the program on the first line, and the line that ends the session is `:q`. -/
theorem session_account_leftOver :
    ∃ (stdin : List UInt8) (text : String), text = "x:=readint()\n7\nx:=#\n:clear\n:q\nx" ∧
      Text.decode? stdin = some text ∧
      Text.lines text = ["x:=readint()", "7", "x:=#", ":clear", ":q", "x"] ∧
      (∀ line ∈ handled (stdin.length + 1) (opened stdin .byName),
        Text.takeBack? line.toList = some line.toList) ∧
      ∃ (entries : List Entry) (rest : List String),
        Text.lines text = entries.flatMap Entry.lines ++ rest ∧
        Account (opened stdin .byName) (.start ⟨entries.flatMap Entry.read, 0⟩ .empty) entries rest
          (session stdin) ∧
        (session stdin).machine.output.text = String.join
          ((banner ++ entries.flatMap Entry.written ++ [farewell]).map (· ++ "\n")) ∧
        entries.map (fun e => (e.line, e.read)) =
          [("x:=readint()", ["7"]), ("x:=#", []), (":clear", []), (":q", [])] ∧
        rest = ["x"] ∧
        EndsBy (.start ⟨entries.flatMap Entry.read, 0⟩ .empty) entries := by
  have hlines : Text.lines "x:=readint()\n7\nx:=#\n:clear\n:q\nx" =
      ["x:=readint()", "7", "x:=#", ":clear", ":q", "x"] := by
    decide
  have hinput : (opened (Text.encode "x:=readint()\n7\nx:=#\n:clear\n:q\nx")
      .byName).machine.input.Spells ["x:=readint()", "7", "x:=#", ":clear", ":q", "x"] :=
    ⟨_, rfl, hlines⟩
  -- no line has a backspace, the number included
  have htyped (fuel : Nat) :
      ∀ line ∈ handled fuel (opened (Text.encode "x:=readint()\n7\nx:=#\n:clear\n:q\nx") .byName),
        Text.takeBack? line.toList = some line.toList := by
    intro line hline
    apply Text.takeBack?_of_not_mem
    have hmem := handled_subset hinput _ hline
    revert hmem
    simp only [List.mem_cons, List.not_mem_nil, or_false]
    rintro (rfl | rfl | rfl | rfl | rfl | rfl) <;> decide
  obtain ⟨entries, rest, hsplit, haccount, houtput⟩ :=
    session_account .byName (Text.decode?_encode _) (htyped _)
  obtain ⟨hread, hrest⟩ := haccount.entries_eq (hsplit.symm.trans hlines)
  refine ⟨_, _, rfl, Text.decode?_encode _, hlines, htyped _, entries, rest, hsplit, haccount,
    houtput, hread, hrest, ?_⟩
  -- a line is left over, so the session did not end for want of lines
  obtain ⟨hends, -⟩ | ⟨-, hnil, -⟩ := haccount.ending
  · exact hends
  · rw [hrest] at hnil
    cases hnil

end Shell

end Scriptling

import Scriptling.Proofs.Interpreter.Listings
import Scriptling.Proofs.Text.Lines

/-!
# What programs do to input and output

Programs take lines of input one by one and never look ahead, and they only add lines to the
output. So neither the form in which the lines come and go nor what else is there makes a
difference to them. Three pairs of runs go in lockstep:

* over a stream of bytes that is text and over the lines of that text;
* over some lines of input and over these lines with others behind them, until the first run
  finds no line;
* with an output that has lines already and with an empty one.

Each pair of runs is also compared where the second one lists the bindings of its frames in another
order; then one hint may be put for another that is equally near.
-/

namespace Scriptling

theorem RunError.At.eq {e e' : RunError} (h : At Eq e e') : e = e' := by
  obtain ⟨fault, span⟩ := e
  obtain ⟨rfl, rfl⟩ : fault = e'.fault ∧ span = e'.span := h
  rfl

/-- Results that agree in their faults and places are the same. -/
theorem Matches.eq_of_at {α : Type} {r r' : Except RunError α}
    (h : Matches (RunError.At Eq) r r') : r = r' := by
  cases h with
  | ok a => rfl
  | error he => rw [he.eq]

/-! ## Bytes and lines -/

/-- The stream is the bytes of a text, and the lines are those of the text. -/
def ByteStream.Spells (s : ByteStream) (ls : List String) : Prop :=
  ∃ text, s = ⟨Text.encode text⟩ ∧ ls = Text.lines text

/-- The text is that of the lines, with a line feed behind each. -/
def Transcript.Records (t : Transcript) (b : LineBuffer) : Prop :=
  t.text = String.join (b.lines.map (· ++ "\n"))

/-- The lines of a text are read from its bytes. -/
theorem readLine_spells {stop : Fault → Prop} :
    SimulatesUntil stop ByteStream.Spells Eq (readLine : Eval ByteStream String)
      (readLine : Eval (List String) String) := by
  rintro _ _ ⟨text, rfl, rfl⟩
  right
  by_cases h : text = ""
  · subst h
    rw [Text.encode_empty]
    exact ⟨.error rfl, "", by rw [Text.encode_empty]; rfl, rfl⟩
  · obtain ⟨line, rest, hlines, hnext⟩ := ByteStream.exists_next_encode h
    have hnext : LineSource.next (⟨Text.encode text⟩ : ByteStream) = _ := hnext
    simp only [readLine, ExceptT.run_mk, hnext, hlines]
    exact ⟨.ok line, rest, rfl, rfl⟩

theorem LineBuffer.lines_write (b : LineBuffer) (line : String) :
    (LineSink.write b line).2.lines = b.lines ++ [line] :=
  List.reverse_cons

theorem Transcript.coupled_records : LineSink.Coupled Transcript.Records where
  write {t b} line h := by
    refine ⟨rfl, ?_⟩
    rw [Transcript.Records, LineBuffer.lines_write, List.map_append, String.join_append, ← h]
    exact String.append_assoc
  flush h := ⟨rfl, h⟩

/-- **Bytes and lines come to the same.** Over a stream of bytes that is text a program ends in the
same way, or with the same error, and with the same variables as over the lines of that text; and
the text that it writes is made of the lines that it writes, with a line feed behind each. If the
run over the lines lists the bindings of its frames in another order, then nothing changes but a
hint for one that is equally near. -/
theorem Program.run_bytes_eq_lines (p : Program) (scopes : Scopes) (l : Listing)
    {stdin : List UInt8} {text : String} (htext : Text.decode? stdin = some text) :
    let r := p.run.run (⟨scopes, ⟨stdin⟩, .empty⟩ : Machine ByteStream Transcript)
    let m : Machine (List String) LineBuffer := ⟨scopes, Text.lines text, .empty⟩
    let r' := p.run.run m
    let relisted := p.run.run (m.relist l)
    (r.1 = r'.1 ∧ r.2.scopes = r'.2.scopes ∧
      r.2.output.text = String.join (r'.2.output.lines.map (· ++ "\n"))) ∧
    Matches RunError.Tied r.1 relisted.1 ∧ relisted.2 = r'.2.relist l := by
  intro r m r' relisted
  have hlockstep : Exec.Lockstep (fun _ => True) (fun _ => False) Eq Eq ByteStream.Spells
      Transcript.Records :=
    ⟨fun _ => rfl, Scopes.coupled_eq fun _ => rfl, readLine_spells, Transcript.coupled_records⟩
  have hrun := hlockstep.run_always (p := p) fun _ _ => trivial
  obtain rfl := Text.decode?_eq_some_iff.mp htext
  obtain ⟨hresult, hparts⟩ := hrun ⟨scopes, ⟨Text.encode text⟩, .empty⟩ m
    ⟨rfl, ⟨text, rfl, rfl⟩, rfl⟩
  have hresult : r.1 = r'.1 := hresult.eq_of_at
  obtain ⟨htied, hmachine⟩ := p.run_relist m l
  rw [hresult]
  exact ⟨⟨rfl, hparts.scopes, hparts.output⟩, htied, hmachine⟩

/-- A variable, two lines, of which the last one has no line feed, and a program that asks for
three. -/
theorem Program.run_bytes_eq_lines_unterminated :
    ∃ (p : Program) (scopes : Scopes) (stdin : List UInt8) (text : String)
      (m : Machine ByteStream Transcript) (m' : Machine (List String) LineBuffer),
      p = ⟨[.print ⟨0, 13⟩ (.readInt ⟨6, 13⟩), .print ⟨15, 28⟩ (.readStr ⟨21, 28⟩),
        .print ⟨30, 43⟩ (.readStr ⟨36, 43⟩)]⟩ ∧
      scopes = ⟨[], (∅ : Frame).insert "x" (.int 1), .byName⟩ ∧
      stdin = [55, 13, 10, 97] ∧ Text.decode? stdin = some text ∧ Text.lines text = ["7", "a"] ∧
      m = ⟨scopes, ⟨stdin⟩, .empty⟩ ∧ m' = ⟨scopes, ["7", "a"], .empty⟩ ∧
      (p.run.run m').1 = .error ⟨.endOfInput, some ⟨30, 43⟩⟩ ∧
      ((p.run.run m).1 = (p.run.run m').1 ∧
        (p.run.run m).2.scopes = (p.run.run m').2.scopes ∧
        (p.run.run m).2.output.text =
          String.join ((p.run.run m').2.output.lines.map (· ++ "\n"))) ∧
      Matches RunError.Tied (p.run.run m).1 (p.run.run (m'.relist .reversed)).1 ∧
      (p.run.run (m'.relist .reversed)).2 = (p.run.run m').2.relist .reversed := by
  have htext : Text.decode? [55, 13, 10, 97] = some "7\r\na" := by
    apply Text.decode?_eq_some_iff.mpr
    rw [Text.encode_eq_flatMap]
    decide
  have hlines : Text.lines "7\r\na" = ["7", "a"] := by decide
  refine ⟨_, _, _, _, _, _, rfl, rfl, rfl, htext, hlines, rfl, rfl, by with_unfolding_all rfl, ?_⟩
  have h := Program.run_bytes_eq_lines
    ⟨[.print ⟨0, 13⟩ (.readInt ⟨6, 13⟩), .print ⟨15, 28⟩ (.readStr ⟨21, 28⟩),
      .print ⟨30, 43⟩ (.readStr ⟨36, 43⟩)]⟩
    ⟨[], (∅ : Frame).insert "x" (.int 1), .byName⟩ .reversed htext
  rwa [hlines] at h

/-! ## Input and output as far as they are used -/

/-- With more lines behind, the same line is read, unless there was none. -/
theorem readLine_append (ys : List String) :
    SimulatesUntil (· = .endOfInput) (fun xs zs => zs = xs ++ ys) Eq
      (readLine : Eval (List String) String) (readLine : Eval (List String) String) := by
  rintro xs _ rfl
  cases xs with
  | nil =>
    -- the longer input may have a line here, so the comparison ends
    exact Or.inl ⟨.endOfInput, rfl, rfl⟩
  | cons line xs => exact Or.inr ⟨.ok line, rfl⟩

/-- What is left after a line was read is an end of what there was. -/
theorem readLine_suffix (xs : List String) {stop : Fault → Prop} :
    SimulatesUntil stop (fun ys zs => ys = zs ∧ ys <:+ xs) Eq
      (readLine : Eval (List String) String) (readLine : Eval (List String) String) := by
  rintro ys _ ⟨rfl, h⟩
  right
  cases ys with
  | nil => exact ⟨.error rfl, rfl, h⟩
  | cons line ys => exact ⟨.ok line, rfl, (List.suffix_cons line ys).trans h⟩

/-- Lines that were there before do not matter to what is written. -/
theorem LineBuffer.coupled_append (before : List String) :
    LineSink.Coupled fun b b' : LineBuffer => b.lines = before ++ b'.lines where
  write {b b'} line h := by
    refine ⟨rfl, ?_⟩
    rw [lines_write, lines_write, h, List.append_assoc]
  flush h := ⟨rfl, h⟩

/-- Machines that differ in the lines behind the input only. -/
theorem Machine.Parts.eq_append {ο : Type} {ys : List String} {m m' : Machine (List String) ο}
    (h : m.Parts Eq (fun xs zs => zs = xs ++ ys) Eq m') :
    m' = { m with input := m.input ++ ys } := by
  obtain ⟨scopes, input, output⟩ := m'
  obtain ⟨rfl, rfl, rfl⟩ := h
  rfl

section

variable (p : Program) (m : Machine (List String) LineBuffer)

/-- **No look-ahead.** Lines of input behind those that a program asks for are left over. -/
theorem Program.run_append_input (ys : List String)
    (h : ∀ e, (p.run.run m).1 = .error e → e.fault ≠ .endOfInput) :
    p.run.run { m with input := m.input ++ ys } =
      ((p.run.run m).1, { (p.run.run m).2 with input := (p.run.run m).2.input ++ ys }) := by
  have hlockstep : Exec.Lockstep (fun _ => True) (· = .endOfInput) Eq Eq
      (fun xs zs : List String => zs = xs ++ ys) (Eq : LineBuffer → LineBuffer → Prop) :=
    ⟨fun _ => rfl, Scopes.coupled_eq fun _ => rfl, readLine_append ys, LineSink.coupled_eq⟩
  have hrun := hlockstep.run (p := p) fun _ _ => trivial
  obtain ⟨e, he, hstop⟩ | ⟨hresult, hparts⟩ :=
    hrun m { m with input := m.input ++ ys } ⟨rfl, rfl, rfl⟩
  · exact absurd hstop (h e he)
  · apply Prod.ext
    · exact hresult.eq_of_at.symm
    · exact hparts.eq_append

/-- A run over an output that has lines already, next to one over an empty output. -/
theorem Program.run_append_output :
    (p.run.run m).2.input <:+ m.input ∧
      (p.run.run m).2.output.lines =
        m.output.lines ++ (p.run.run { m with output := LineBuffer.empty }).2.output.lines := by
  have hlockstep : Exec.Lockstep (fun _ => True) (fun _ => False) Eq Eq
      (fun xs zs : List String => xs = zs ∧ xs <:+ m.input)
      (fun b b' : LineBuffer => b.lines = m.output.lines ++ b'.lines) :=
    ⟨fun _ => rfl, Scopes.coupled_eq fun _ => rfl, readLine_suffix m.input,
      LineBuffer.coupled_append m.output.lines⟩
  have hrun := hlockstep.run_always (p := p) fun _ _ => trivial
  obtain ⟨-, hparts⟩ := hrun m { m with output := .empty }
    ⟨rfl, ⟨rfl, List.suffix_refl m.input⟩, (List.append_nil m.output.lines).symm⟩
  exact ⟨hparts.input.2, hparts.output⟩

/-- **Input is taken without look-ahead, and output only grows.** If a run does not fail for the
want of a line, then with more lines of input behind it ends in the same way, with the same
variables and the same output, and leaves these lines behind what it left before. What a run
leaves of the input is always an end of it. And a run adds lines to the output that do not depend
on what was there. If the second run lists the bindings of its frames in another order, then
nothing changes but a hint for one that is equally near. -/
theorem Program.run_input_output :
    (∀ ys : List String,
      (∀ e, (p.run.run m).1 = .error e → e.fault.message ≠ "IO error: end of input") →
      let longer : Machine (List String) LineBuffer := { m with input := m.input ++ ys }
      let left := { (p.run.run m).2 with input := (p.run.run m).2.input ++ ys }
      p.run.run longer = ((p.run.run m).1, left) ∧
      ∀ l : Listing, Matches RunError.Tied (p.run.run m).1 (p.run.run (longer.relist l)).1 ∧
        (p.run.run (longer.relist l)).2 = left.relist l) ∧
    (p.run.run m).2.input <:+ m.input ∧
    ∃ w : List String, ∀ (o : LineBuffer) (l : Listing),
      (p.run.run ({ m with output := o }.relist l)).2.output.lines = o.lines ++ w := by
  refine ⟨fun ys h => ?_, (p.run_append_output m).1,
    (p.run.run { m with output := LineBuffer.empty }).2.output.lines, fun o l => ?_⟩
  · have hlonger := p.run_append_input m ys fun e he hend => h e he (congrArg Fault.message hend)
    refine ⟨hlonger, fun l => ?_⟩
    have hrelist := p.run_relist { m with input := m.input ++ ys } l
    rwa [hlonger] at hrelist
  · rw [(p.run_relist { m with output := o } l).2]
    exact (p.run_append_output { m with output := o }).2

end

/-- A line that is not an integer is taken all the same, and the lines behind it are not. -/
theorem Program.run_input_output_notInteger :
    ∃ (p : Program) (m longer : Machine (List String) LineBuffer),
      p = ⟨[.print ⟨0, 13⟩ (.readInt ⟨6, 13⟩)]⟩ ∧
      m = ⟨⟨[], (∅ : Frame).insert "x" (.int 1), .byName⟩, ["seven", "8"], ⟨["before"]⟩⟩ ∧
      longer = { m with input := ["seven", "8", "9"] } ∧
      (p.run.run m).1 = .error ⟨.notInteger "seven", some ⟨0, 13⟩⟩ ∧
      (p.run.run m).2.input = ["8"] ∧
      p.run.run longer = ((p.run.run m).1, { (p.run.run m).2 with input := ["8", "9"] }) ∧
      Matches RunError.Tied (p.run.run m).1 (p.run.run (longer.relist .reversed)).1 ∧
      (p.run.run (longer.relist .reversed)).2 =
        { (p.run.run m).2 with input := ["8", "9"] }.relist .reversed := by
  let p : Program := ⟨[.print ⟨0, 13⟩ (.readInt ⟨6, 13⟩)]⟩
  let m : Machine (List String) LineBuffer :=
    ⟨⟨[], (∅ : Frame).insert "x" (.int 1), .byName⟩, ["seven", "8"], ⟨["before"]⟩⟩
  have hresult : (p.run.run m).1 = .error ⟨.notInteger "seven", some ⟨0, 13⟩⟩ := by
    with_unfolding_all rfl
  obtain ⟨hlonger, hrelist⟩ := (Program.run_input_output p m).1 ["9"] fun e he => by
    obtain rfl := Except.error.inj (hresult.symm.trans he)
    decide
  exact ⟨p, m, _, rfl, rfl, rfl, hresult, by with_unfolding_all rfl, hlonger, hrelist .reversed⟩

end Scriptling

import Scriptling.Grammar.Parse
import Scriptling.Interpreter.Exec
import Scriptling.Token.Scan

/-!
# Errors of a source and of its run

A source can fail in three ways: it has no tokens, its tokens are no program, or the
program fails when it is run. `Diagnostic` unites them, with a message, a span and a
one-line text for each. `Program.ofSource` and `runSource` go the whole way from text.
-/

namespace Scriptling

/-- Anything that can be wrong with a source. -/
inductive Diagnostic
  /-- it cannot be cut into tokens -/
  | scan (e : ScanError)
  /-- its tokens are no program -/
  | parse (e : SyntaxError)
  /-- its run failed -/
  | run (e : RunError)
deriving DecidableEq, Repr

namespace Diagnostic

/-- Where the error is, if it has a place. -/
def span : Diagnostic → Option Span
  | scan e => e.span
  | parse e => e.span
  | run e => e.span

/-- The error in words. -/
def message : Diagnostic → String
  | scan e => e.fault.message
  | parse e => e.message
  | run e => e.fault.message

/-- The title under which the error is reported. -/
def title : Diagnostic → String
  | scan _ => "Lexer error"
  | parse _ => "Parser error"
  | run _ => "Runtime error"

/-- Title and message. Errors of the text itself also say where. -/
def text (d : Diagnostic) : String :=
  match d with
  | scan e => d.title ++ " at " ++ e.span.text ++ ": " ++ d.message
  | parse e => d.title ++ " at " ++ e.span.text ++ ": " ++ d.message
  | run _ => d.title ++ ": " ++ d.message

end Diagnostic

/-- An error as it is shown to the user. -/
structure Report where
  /-- what went wrong -/
  title : String
  /-- file, line and column -/
  location : Option String
  /-- what exactly went wrong there -/
  detail : Option String
deriving DecidableEq, Repr

namespace Report

/-- A report without a place. -/
def plain (title : String) : Report :=
  ⟨"Error: " ++ title, none, none⟩

/-- The report of an error in a source. Its place is where its span starts, as far as the
source goes. -/
def ofDiagnostic (file source : String) (d : Diagnostic) : Report :=
  match d.span with
  | some span =>
    let start := (span.clamp source.utf8ByteSize).start
    { title := "Error: " ++ d.title
      location := file ++ ":" ++ (Position.ofOffset source.toList start).text
      detail := d.message }
  | none => plain (d.title ++ ": " ++ d.message)

end Report

/-- The program that a source spells. -/
def Program.ofSource (source : String) : Except Diagnostic Program :=
  match scan source.toList with
  | .error e => .error (.scan e)
  | .ok tokens => (Program.ofTokens tokens).mapError .parse

theorem Program.ofSource_eq_ok_iff {source : String} {p : Program} :
    Program.ofSource source = .ok p ↔
      ∃ tokens, scan source.toList = .ok tokens ∧ Program.ofTokens tokens = .ok p := by
  rw [Program.ofSource]
  rcases scan source.toList with e | tokens
  · simp
  · simp only [Except.ok.injEq, exists_eq_left']
    rcases Program.ofTokens tokens with e | q
    · exact ⟨nofun, nofun⟩
    · show Except.ok q = .ok p ↔ _
      simp

theorem Program.ofSource_eq_parse_iff {source : String} {e : SyntaxError} :
    Program.ofSource source = .error (.parse e) ↔
      ∃ tokens, scan source.toList = .ok tokens ∧ Program.ofTokens tokens = .error e := by
  rw [Program.ofSource]
  rcases scan source.toList with e' | tokens
  · simp
  · simp only [Except.ok.injEq, exists_eq_left']
    rcases Program.ofTokens tokens with e' | q
    · show Except.error (Diagnostic.parse e') = .error (.parse e) ↔ _
      simp
    · exact ⟨nofun, nofun⟩

section

variable {ι ο : Type} [LineSource ι] [LineSink ο]

/-- Runs a program on a machine. -/
def Machine.runProgram (m : Machine ι ο) (p : Program) :
    Except Diagnostic Outcome × Machine ι ο :=
  let (r, m) := p.run.run m
  (r.mapError .run, m)

/-- Runs a source on a machine. A source that is no program leaves the machine alone. -/
def Machine.runSource (m : Machine ι ο) (source : String) :
    Except Diagnostic Outcome × Machine ι ο :=
  match Program.ofSource source with
  | .error d => (.error d, m)
  | .ok p => m.runProgram p

/-- Evaluates an expression on a machine. -/
def Machine.evalExpr (m : Machine ι ο) (e : Expr) : Except Diagnostic Value × Machine ι ο :=
  let (r, m) := (evalAlone e).run m
  (r.mapError .run, m)

end

end Scriptling

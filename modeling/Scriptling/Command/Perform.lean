import Scriptling.Command.Line
import Scriptling.Files.Directory
import Scriptling.Shell
import Scriptling.Syntax.Data

/-!
# What the commands do

Given the files and the standard input, `Command.perform` yields what a command leaves
behind: the exit code, the text for standard output and the reports of errors. A source
file that cannot be read, a source that is no program, a failed run and a missing input
file each end a command with exit code 1.
-/

namespace Scriptling

/-- What the program leaves behind. -/
structure Answer where
  /-- the exit code -/
  exit : Nat
  /-- the text on standard output -/
  output : String
  /-- the errors that were reported -/
  reports : List Report
deriving DecidableEq, Repr

namespace Answer

/-- Success. -/
def success (output : String) : Answer := ⟨0, output, []⟩

/-- Failure with a report. -/
def failure (output : String) (r : Report) : Answer := ⟨1, output, [r]⟩

end Answer

namespace Command

/-- The contents of what a path leads to, and what is then left of standard input. -/
def contents (stdin : List UInt8) : Entry → Except ReadError (List UInt8 × List UInt8)
  | .file bytes => .ok (bytes, stdin)
  | .directory => .error .isDirectory
  | .standardInput => .ok (stdin, [])

/-- The text of a source file and what is then left of standard input, or why there is no
text. -/
def source (files : Files) (stdin : List UInt8) (file : String) :
    Except ReadError (String × List UInt8) := do
  let (bytes, stdin) ← contents stdin (← files file)
  match Text.decode? bytes with
  | none => .error .notText
  | some text => .ok (text, stdin)

/-- Does something with the text of a source file and what is then left of standard
input. -/
def withSource (files : Files) (stdin : List UInt8) (file : String)
    (action : String → List UInt8 → Answer) : Answer :=
  match source files stdin file with
  | .error why => .failure "" (.plain ("cannot read " ++ file ++ ": " ++ why.message))
  | .ok (text, stdin) => action text stdin

/-- Runs a program on some input. -/
def runOn {ι : Type} [LineSource ι] (file text : String) (p : Program) (input : ι) : Answer :=
  let m : Machine ι Transcript := .start input .empty
  let (result, m) := m.runProgram p
  match result with
  | .ok _ => .success m.output.text
  | .error d => .failure m.output.text (.ofDiagnostic file text d)

/-- Runs a source file. The source is read as a program before the input is looked for. A
directory can be given as input, but nothing can be read from it. -/
def runFile (files : Files) (file : String) (input : Option String) (text : String)
    (stdin : List UInt8) : Answer :=
  match Program.ofSource text with
  | .error d => .failure "" (.ofDiagnostic file text d)
  | .ok p =>
    match input with
    | none => runOn file text p (ByteStream.mk stdin)
    | some path =>
      match files path with
      | .error why =>
        .failure "" (.plain ("IO error: cannot open " ++ path ++ ": " ++ why.message))
      | .ok .directory => runOn file text p (Unreadable.mk .isDirectory)
      | .ok (.file bytes) => runOn file text p (ByteStream.mk bytes)
      | .ok .standardInput => runOn file text p (ByteStream.mk stdin)

/-- Shows the tree of a source file. -/
def parseFile (file text : String) : Answer :=
  match Program.ofSource text with
  | .error d => .failure "" (.ofDiagnostic file text d)
  | .ok p => .success (p.toJson.pretty "" ++ "\n")

/-- A token on a line of a listing. -/
def tokenLine (t : Placed) : String :=
  t.token.listing ++ " @ " ++ t.span.text ++ "\n"

/-- Shows the tokens of a source file. -/
def tokensFile (file text : String) : Answer :=
  match scan text.toList with
  | .error e => .failure "" (.ofDiagnostic file text (.scan e))
  | .ok ts => .success (String.join (ts.map tokenLine))

/-- Holds a session. If it breaks down, the exit code tells. -/
def holdSession (stdin : List UInt8) : Answer :=
  let shell := Shell.session stdin
  ⟨if shell.brokeDown then 101 else 0, shell.machine.output.text, shell.reports⟩

/-- Does what a command asks for. -/
def perform (files : Files) (stdin : List UInt8) : Command → Answer
  | version => .success ("aug " ++ Shell.version ++ "\n")
  | run file input => withSource files stdin file (runFile files file input)
  | parse file => withSource files stdin file fun text _ => parseFile file text
  | tokens file => withSource files stdin file fun text _ => tokensFile file text
  | repl => holdSession stdin

end Command

end Scriptling

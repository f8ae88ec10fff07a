import Scriptling.Diagnostic
import Scriptling.Text.Backspace

/-!
# The interactive session

A session reads its input line by line, as it was typed: a backspace takes back what is
before it. A line that starts with a colon is a command of the session; every other line
is a program, run on a machine that keeps its variables from line to line. Programs read
from the same input: the lines that they read are not lines of the session, and reach them
as they are.

The session ends with a farewell when it is told to, when a program ends by `exit`, and
at the end of the input; it ends without one at a line that cannot be read, and breaks down
at a line of which a backspace leaves half a character. Errors are reported and change
nothing else.
-/

namespace Scriptling

/-- What a line of a session asks for. -/
inductive ShellLine
  /-- nothing -/
  | blank
  /-- to end the session -/
  | quit
  /-- to explain the commands -/
  | help
  /-- to list the variables -/
  | vars
  /-- to forget the variables -/
  | clear
  /-- a command that does not exist -/
  | unknown (text : String)
  /-- to run a program -/
  | program (text : String)
  /-- nothing that can be told, because a backspace cut a character in two -/
  | broken
deriving DecidableEq, Repr

/-- Reads a line of a session. Backspaces take back what is before them; white space
around the rest does not count. -/
def ShellLine.ofText (line : String) : ShellLine :=
  match Text.takeBack? line.toList with
  | none => broken
  | some typed =>
    let text := Text.trim typed
    match String.ofList text with
    | "" => blank
    | ":quit" | ":q" => quit
    | ":help" | ":h" | ":?" => help
    | ":vars" | ":v" => vars
    | ":clear" => clear
    | s => if text.head? = some ':' then unknown s else program s

/-- The state of a session. -/
structure Shell where
  /-- the machine that runs the programs -/
  machine : Machine ByteStream Transcript
  /-- the errors reported so far -/
  reports : List Report
  /-- whether the session broke down -/
  brokeDown : Bool := false

namespace Shell

/-- The version that the session announces. -/
def version : String := "0.1.0"

/-- The lines that open a session. -/
def banner : List String :=
  ["aug REPL v" ++ version, "Type :help for help, :quit to exit.", ""]

/-- The line that ends a session. -/
def farewell : String := "Goodbye!"

/-- The explanation of the commands. -/
def helpLines : List String :=
  ["aug REPL Commands:",
    "  :help, :h, :?   Show this help",
    "  :quit, :q       Exit the REPL",
    "  :vars, :v       List global variables",
    "  :clear          Drop every variable",
    "",
    "Each line runs as a program; variables persist between lines.",
    "  x := 6 * 7; print(x)",
    "  for i := 1 to 3 do print(concatenate(\"#\", \"!\"))",
    "  exit            End the session"]

/-- The global variables, one on a line. -/
def varLines (scopes : Scopes) : List String :=
  match scopes.globals with
  | [] => ["(no variables)"]
  | globals => globals.map fun (name, v) => name ++ " : " ++ v.kind.text ++ " = " ++ v.text

/-- The name of the source in reports. -/
def sourceName : String := "<repl>"

/-- Writes lines. -/
def say (shell : Shell) (lines : List String) : Shell :=
  { shell with machine :=
    { shell.machine with output := lines.foldl Transcript.line shell.machine.output } }

/-- Adds a report. -/
def report (shell : Shell) (r : Report) : Shell :=
  { shell with reports := shell.reports ++ [r] }

/-- Runs a program. The first result says whether the session goes on. -/
def runProgram (shell : Shell) (source : String) : Bool × Shell :=
  let (result, machine) := shell.machine.runSource source
  let shell := { shell with machine }
  match result with
  | .ok .completed => (true, shell)
  | .ok .exited => (false, shell.say [farewell])
  | .error d => (true, shell.report (.ofDiagnostic sourceName source d))

/-- Does what a line asks for. The first result says whether the session goes on. -/
def handle (shell : Shell) : ShellLine → Bool × Shell
  | .blank => (true, shell)
  | .quit => (false, shell.say [farewell])
  | .help => (true, shell.say helpLines)
  | .vars => (true, shell.say (varLines shell.machine.scopes))
  | .clear => (true, { shell with machine := shell.machine.reset }.say ["All variables cleared."])
  | .unknown text => (true, shell.say ["Unknown command: " ++ text, "Type :help for help."])
  | .program text => shell.runProgram text
  | .broken => (false, { shell with brokeDown := true })

/-- Takes the next line of the input and does what it asks for. The first result says
whether the session goes on. -/
def step (shell : Shell) : Bool × Shell :=
  let (reading, input) := shell.machine.input.next
  let shell := { shell with machine := { shell.machine with input } }
  match reading with
  | .line line => shell.handle (.ofText line)
  | .failed why => (false, shell.report (.plain why.message))
  | .finished => (false, shell.say [farewell])

/-- Takes lines until the session ends, at most `fuel` of them. -/
def loop : (fuel : Nat) → Shell → Shell
  | 0, shell => shell
  | fuel + 1, shell =>
    match shell.step with
    | (true, shell) => loop fuel shell
    | (false, shell) => shell

/-- A whole session on some input. Every line takes at least one byte, so the number of
bytes bounds the number of lines. -/
def session (input : List UInt8) (listing : Listing := .byName) : Shell :=
  let shell : Shell := { machine := .start ⟨input⟩ .empty listing, reports := [] }
  loop (input.length + 1) (shell.say banner)

end Shell

end Scriptling

/-!
# The command line

A command line names what to do and with which files. `Command.ofArgs?` reads it.

Options may stand before and behind the name of the command, long ones with their value
as the next argument or behind `=`, short ones in clusters. An argument `--` ends the
options. The wish for logs may be uttered once before the name and once behind it. A line
that cannot be read is a usage error.
-/

namespace Scriptling

/-- What the program can be asked to do. -/
inductive Command
  /-- to tell its version -/
  | version
  /-- to run a program, which reads its lines from a file or from standard input -/
  | run (file : String) (input : Option String)
  /-- to show the tree of a program -/
  | parse (file : String)
  /-- to show the tokens of a program -/
  | tokens (file : String)
  /-- to hold a session -/
  | repl
deriving DecidableEq, Repr

/-- The form of an argument. -/
inductive Argument
  /-- two dashes alone: `--` -/
  | endOfOptions
  /-- an option by its name, perhaps with a value: `--name` or `--name=value` -/
  | long (name : String) (value : Option String)
  /-- a cluster of options of one letter: `-abc` -/
  | short (letters : List Char)
  /-- anything else -/
  | plain (text : String)
deriving DecidableEq, Repr

/-- The form of an argument. A single dash is plain. -/
def Argument.ofString (arg : String) : Argument :=
  match arg.toList with
  | ['-', '-'] => endOfOptions
  | '-' :: '-' :: cs =>
    let name := String.ofList (cs.takeWhile (· ≠ '='))
    match cs.dropWhile (· ≠ '=') with
    | [] => long name none
    | _ :: value => long name (some (String.ofList value))
  | '-' :: c :: cs => short (c :: cs)
  | _ => plain arg

/-- What the arguments behind the name of a command may be and, as they are read, have
been. -/
structure CommandArgs where
  /-- whether the command takes a file -/
  takesFile : Bool
  /-- whether the command takes an input file -/
  takesInput : Bool
  /-- the file -/
  file : Option String := none
  /-- the input file -/
  input : Option String := none
  /-- whether a wish for logs was seen -/
  verbose : Bool := false

namespace CommandArgs

/-- Sets the file: once, and not to an empty path. -/
def setFile? (a : CommandArgs) (path : String) : Option CommandArgs :=
  if a.takesFile && a.file.isNone && path != "" then some { a with file := path } else none

/-- Sets the input file: once, and not to an empty path. -/
def setInput? (a : CommandArgs) (path : String) : Option CommandArgs :=
  if a.takesInput && a.input.isNone && path != "" then some { a with input := path } else none

/-- Notes a wish for logs: once. -/
def setVerbose? (a : CommandArgs) : Option CommandArgs :=
  if a.verbose then none else some { a with verbose := true }

/-- Reads a cluster of short options. The result says whether the last one still wants its
value, the next argument. -/
def readCluster? (a : CommandArgs) : List Char → Option (CommandArgs × Bool)
  | [] => some (a, false)
  | 'v' :: cs => do readCluster? (← a.setVerbose?) cs
  | 'i' :: [] => some (a, true)
  | 'i' :: '=' :: value => do return (← a.setInput? (String.ofList value), false)
  | 'i' :: value => do return (← a.setInput? (String.ofList value), false)
  | _ => none

/-- Reads an argument by itself. The result says whether it wants the next argument as its
value. -/
def readOne? (a : CommandArgs) (arg : Argument) : Option (CommandArgs × Bool) :=
  match arg with
  | .plain path => do return (← a.setFile? path, false)
  | .long "verbose" none => do return (← a.setVerbose?, false)
  | .long "input" none => some (a, true)
  | .long "input" (some path) => do return (← a.setInput? path, false)
  | .short letters => a.readCluster? letters
  | _ => none

/-- Reads the arguments behind the name of a command. -/
def readAll? (a : CommandArgs) : List String → Option CommandArgs
  | [] => some a
  | arg :: rest =>
    match Argument.ofString arg with
    | .endOfOptions => rest.foldlM setFile? a
    | form =>
      match a.readOne? form with
      | none => none
      | some (a, false) => a.readAll? rest
      | some (a, true) =>
        match rest with
        | [] => none
        | value :: rest =>
          match Argument.ofString value with
          | .plain path => do (← a.setInput? path).readAll? rest
          | _ => none

end CommandArgs

namespace Command

/-- Reads what follows the name of a command. -/
def ofName? (name : String) (args : List String) : Option Command :=
  match name with
  | "run" => do
    let a ← CommandArgs.readAll? { takesFile := true, takesInput := true } args
    return run (← a.file) a.input
  | "parse" => do
    let a ← CommandArgs.readAll? { takesFile := true, takesInput := false } args
    return parse (← a.file)
  | "tokens" => do
    let a ← CommandArgs.readAll? { takesFile := true, takesInput := false } args
    return tokens (← a.file)
  | "repl" => do
    let _ ← CommandArgs.readAll? { takesFile := false, takesInput := false } args
    return repl
  | _ => none

/-- What a cluster of short options before the name of a command comes to. -/
inductive Leading
  /-- a usage error -/
  | wrong
  /-- the version is asked for -/
  | version
  /-- nothing more than perhaps a wish for logs -/
  | done (verbose : Bool)

/-- Reads a cluster of short options before the name of a command. -/
def readLeading (verbose : Bool) : List Char → Leading
  | [] => .done verbose
  | 'v' :: cs => if verbose then .wrong else readLeading true cs
  | 'V' :: _ => .version
  | _ => .wrong

/-- Reads a command line; `verbose` says whether a wish for logs was seen. -/
def ofArgsFrom? (verbose : Bool) : List String → Option Command
  | [] => none
  | arg :: rest =>
    match Argument.ofString arg with
    | .plain name => ofName? name rest
    | .long "verbose" none => if verbose then none else ofArgsFrom? true rest
    | .long "version" none => some version
    | .short letters =>
      match readLeading verbose letters with
      | .wrong => none
      | .version => some version
      | .done verbose => ofArgsFrom? verbose rest
    | _ => none

/-- Reads a command line; nothing for a usage error. -/
def ofArgs? (args : List String) : Option Command :=
  ofArgsFrom? false args

/-- The files a command reads. -/
def files : Command → List String
  | run file input => file :: input.toList
  | parse file | tokens file => [file]
  | version | repl => []

/-- Whether a command reads standard input. -/
def readsInput : Command → Bool
  | run _ none | repl => true
  | _ => false

end Command

end Scriptling

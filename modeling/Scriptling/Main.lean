import Scriptling.Command.Perform

/-!
# The program

Reads the command line, the files it names and, if the command wants it, standard input;
everything else is `Command.perform`.
-/

namespace Scriptling

/-- What a failure to read a file says about the path. A directory can be found, but not
be read; the number of this failure tells it apart. -/
def Entry.ofFailure : IO.Error → Except ReadError Entry
  | .permissionDenied _ _ _ => .error .denied
  | .inappropriateType _ 21 _ => .ok .directory
  | .inappropriateType _ _ _ => .error .notDirectory
  | .invalidArgument _ _ _ => .error .nameTooLong
  | _ => .error .notFound

/-- What a path leads to. -/
def findFile (path : String) : IO (Except ReadError Entry) := do
  try
    let bytes ← IO.FS.readBinFile path
    return .ok (.file bytes.toList)
  catch e => return Entry.ofFailure e

/-- The bytes read so far and all that are still to come. -/
partial def readRest (stream : IO.FS.Stream) (bytes : ByteArray) : IO ByteArray := do
  let chunk ← stream.read 65536
  if chunk.isEmpty then return bytes else readRest stream (bytes ++ chunk)

/-- All bytes of standard input. -/
def readInput : IO (List UInt8) := do
  return (← readRest (← IO.getStdin) .empty).toList

/-- Shows a report, each part on a line of its own. -/
def Report.show (r : Report) : IO Unit := do
  IO.eprintln r.title
  r.location.forM fun place => IO.eprintln ("  at " ++ place)
  r.detail.forM IO.eprintln

/-- How the program is called. -/
def usage : String :=
  "usage: aug [-v] (run FILE [--input FILE] | parse FILE | tokens FILE | repl | --version)"

/-- Does what the command line asks for. A usage error is told and has exit code 2. -/
def runArgs (args : List String) : IO UInt32 := do
  match Command.ofArgs? args with
  | none =>
    IO.eprintln usage
    return 2
  | some command =>
    let contents ← command.files.mapM fun path => return (path, ← findFile path)
    let stdin ← if command.readsInput then readInput else pure []
    let answer := command.perform (fun path => (contents.lookup path).getD (.error .notFound)) stdin
    IO.print answer.output
    answer.reports.forM Report.show
    return UInt32.ofNat answer.exit

end Scriptling

/-- The program. -/
def main (args : List String) : IO UInt32 :=
  Scriptling.runArgs args

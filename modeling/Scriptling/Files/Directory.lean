import Scriptling.Files.ReadError

/-!
# Directories

A directory holds files, in itself and in directories below it. A *path* is a row of steps
between slashes: an empty step and a dot stay where they are, two dots go up, and any other
step is a name to go to. `Directory.find` follows a path and says what it leads to.

Of what is above the directory nothing is known but that it is a directory again. A path
that starts with a slash starts at the root of the system, of which `systemEntries` are
known.
-/

namespace Scriptling

/-- What a path leads to. -/
inductive Entry
  /-- a file with its contents -/
  | file (bytes : List UInt8)
  /-- a directory -/
  | directory
  /-- the standard input -/
  | standardInput
deriving DecidableEq, Repr

/-- How what is there is found: by its path. -/
abbrev Files := String → Except ReadError Entry

/-- A directory. -/
structure Directory where
  /-- what is in it and below it, each with the names on the way to it -/
  entries : List (List String × Entry)

/-- Where a path has come to. -/
inductive Place
  /-- in the directory or below it, at the end of a row of names -/
  | inside (names : List String)
  /-- above the directory -/
  | above
  /-- at the end of a row of names from the root -/
  | system (names : List String)
deriving DecidableEq, Repr

namespace Place

/-- The place one level up. The root is its own. -/
def up : Place → Place
  | inside [] | above => above
  | inside names => inside names.dropLast
  | system names => system names.dropLast

/-- The place of a name in a directory; nothing where no names are known. -/
def enter? (name : String) : Place → Option Place
  | inside names => some (inside (names ++ [name]))
  | above => none
  | system names => some (system (names ++ [name]))

end Place

/-- What is known of the system: an empty file, the standard input, and the directory for
temporary files. -/
def systemEntries : List (List String × Entry) :=
  [(["dev", "null"], .file []), (["dev", "stdin"], .standardInput), (["tmp"], .directory)]

/-- What is at the end of a row of names, where the entries below are given, each with the
names on the way to it. On the way there are directories. -/
def entryAt? (entries : List (List String × Entry)) (names : List String) : Option Entry :=
  match entries.lookup names with
  | some entry => some entry
  | none =>
    if names.isEmpty || entries.any (fun entry => names.isPrefixOf entry.1) then some .directory
    else none

/-- The steps of a path. -/
def pathSteps (path : String) : List String := path.splitOn "/"

/-- The greatest number of bytes in a name. -/
def maxNameLength : Nat := 255

/-- The greatest number of bytes in a path. -/
def maxPathLength : Nat := 4095

namespace Directory

/-- The directory with the given files, each with its path. -/
def ofFiles (files : List (String × List UInt8)) : Directory :=
  ⟨files.map fun (path, bytes) => (pathSteps path, .file bytes)⟩

/-- What is at a place, if anything is. -/
def at? (d : Directory) : Place → Option Entry
  | .inside names => entryAt? d.entries names
  | .above => some .directory
  | .system names => entryAt? systemEntries names

/-- The place one step away from a directory. -/
def step (place : Place) : String → Except ReadError Place
  | "" | "." => .ok place
  | ".." => .ok place.up
  | name =>
    if name.utf8ByteSize > maxNameLength then .error .nameTooLong
    else (place.enter? name).elim (.error .notFound) .ok

/-- Follows the steps of a path from a place. A step can only be made from a directory. -/
def follow (d : Directory) (place : Place) : List String → Except ReadError Entry
  | [] => (d.at? place).elim (.error .notFound) .ok
  | s :: steps =>
    match d.at? place with
    | none => .error .notFound
    | some .directory =>
      match step place s with
      | .error e => .error e
      | .ok place => d.follow place steps
    | some _ => .error .notDirectory

/-- What a path leads to. -/
def find (d : Directory) : Files := fun path =>
  if path.utf8ByteSize > maxPathLength then .error .nameTooLong
  else d.follow (if path.startsWith "/" then .system [] else .inside []) (pathSteps path)

end Directory

end Scriptling

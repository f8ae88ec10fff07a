/-!
# Why something cannot be read

A path can lead to nothing or to the wrong thing, and bytes can be no text. `ReadError`
names the causes; `ReadError.message` has the words for them.
-/

namespace Scriptling

/-- Why something cannot be read. -/
inductive ReadError
  /-- the path leads to nothing -/
  | notFound
  /-- the path may not be followed, or what it leads to not be read -/
  | denied
  /-- the path goes on behind a file -/
  | notDirectory
  /-- the path leads to a directory -/
  | isDirectory
  /-- the path, or a name in it, is too long -/
  | nameTooLong
  /-- the bytes are not UTF-8 -/
  | notText
deriving DecidableEq, Repr

namespace ReadError

/-- A cause that the system numbers. -/
def numbered (words : String) (code : Nat) : String :=
  words ++ " (os error " ++ toString code ++ ")"

/-- The cause in words. -/
def message : ReadError → String
  | notFound => numbered "No such file or directory" 2
  | denied => numbered "Permission denied" 13
  | notDirectory => numbered "Not a directory" 20
  | isDirectory => numbered "Is a directory" 21
  | nameTooLong => numbered "File name too long" 36
  | notText => "stream did not contain valid UTF-8"

end ReadError

end Scriptling

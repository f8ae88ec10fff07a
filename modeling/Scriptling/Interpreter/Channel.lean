import Scriptling.Files.ReadError
import Scriptling.Text.Lines

/-!
# Input and output by lines

A program reads and writes whole lines. Where they come from and go to is left open: an
input is a state from which a next line can be asked (`LineSource`), an output a state to
which a line can be added (`LineSink`). Both can fail, and the state goes on from there.

Lines of input can be listed beforehand (`List String`), or be cut from a stream of bytes
(`ByteStream`); an input can also be such that reading always fails (`Unreadable`). Output
can be kept as a list of lines (`LineBuffer`) or as one text with a line feed behind every
line (`Transcript`); neither of these two ever fails.
-/

namespace Scriptling

/-- The answer to asking for a line. -/
inductive Reading
  /-- a line, without its end -/
  | line (text : String)
  /-- no line, because reading it failed -/
  | failed (why : ReadError)
  /-- no line is left -/
  | finished
deriving DecidableEq, Repr

/-- States from which lines can be read. -/
class LineSource (ι : Type) where
  /-- the next line, and the state after it was taken -/
  next : ι → Reading × ι

/-- Why a line could not be written, in the words of the system. -/
structure WriteError where
  /-- the words -/
  message : String
deriving DecidableEq, Repr

/-- States to which lines can be written. -/
class LineSink (ο : Type) where
  /-- adds a line; the state may have changed even if that failed -/
  write : ο → String → Except WriteError Unit × ο
  /-- sends on all that was written and is still held back -/
  flush : ο → Except WriteError Unit × ο := fun o => (.ok (), o)

/-- Lines given beforehand. They are handed out as they are. -/
instance : LineSource (List String) where
  next
    | [] => (.finished, [])
    | s :: rest => (.line s, rest)

/-- A stream of bytes, as far as it has not been read. -/
structure ByteStream where
  /-- the bytes still to be read -/
  rest : List UInt8
deriving DecidableEq

namespace ByteStream

/-- The next line of a stream. A line that is not text is passed over as a whole. -/
def next (s : ByteStream) : Reading × ByteStream :=
  match s.rest with
  | [] => (.finished, s)
  | bytes =>
    let (line, rest) := Text.cutLine bytes
    match Text.decode? line with
    | some text => (.line (Text.stripEnd text), ⟨rest⟩)
    | none => (.failed .notText, ⟨rest⟩)

instance : LineSource ByteStream := ⟨next⟩

/-- What a line that was asked for left is less than there was. -/
theorem length_next_lt {s : ByteStream} (h : s.next.1 ≠ .finished) :
    s.next.2.rest.length < s.rest.length := by
  obtain ⟨bytes⟩ := s
  cases bytes with
  | nil => exact absurd rfl h
  | cons b bytes =>
    have hlt := Text.length_cutLine_snd_lt b bytes
    simp only [next]
    split <;> exact hlt

/-- All lines of a stream, up to its end. -/
def readings (s : ByteStream) : List Reading :=
  if _h : s.next.1 = .finished then [] else s.next.1 :: s.next.2.readings
termination_by s.rest.length
decreasing_by exact length_next_lt ‹_›

end ByteStream

/-- An input from which nothing can be read, and why. -/
structure Unreadable where
  /-- why every reading fails -/
  why : ReadError
deriving DecidableEq

instance : LineSource Unreadable := ⟨fun u => (.failed u.why, u)⟩

/-- Lines that were written, the last one first. -/
structure LineBuffer where
  /-- the lines in reverse -/
  reversed : List String
deriving DecidableEq

namespace LineBuffer

/-- No lines. -/
def empty : LineBuffer := ⟨[]⟩

/-- The lines in the order in which they were written. -/
def lines (b : LineBuffer) : List String := b.reversed.reverse

instance : LineSink LineBuffer where
  write b s := (.ok (), ⟨s :: b.reversed⟩)

end LineBuffer

/-- The text of all that was written. -/
structure Transcript where
  /-- the text -/
  text : String
deriving DecidableEq

namespace Transcript

/-- Nothing was written. -/
def empty : Transcript := ⟨""⟩

/-- Adds a line and its line feed. -/
def line (t : Transcript) (s : String) : Transcript := ⟨t.text ++ s ++ "\n"⟩

instance : LineSink Transcript where
  write t s := (.ok (), t.line s)

end Transcript

end Scriptling

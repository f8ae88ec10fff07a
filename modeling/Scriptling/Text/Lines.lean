import Scriptling.Text.Whitespace

/-!
# Lines of a byte stream

A stream of bytes is read line by line. A line runs up to and including the next line
feed; a last line without one counts if it has any byte. Each line is decoded by itself,
so bytes that are not UTF-8 spoil only the line they are in. A line is handed out without
the line feeds and carriage returns at its end.
-/

namespace Scriptling.Text

/-- The byte that ends a line. -/
def lineFeed : UInt8 := 10

/-- The first line of a stream, with the line feed that ends it, and what follows. -/
def cutLine : List UInt8 → List UInt8 × List UInt8
  | [] => ([], [])
  | b :: bytes =>
    if b = lineFeed then ([b], bytes)
    else
      let (line, rest) := cutLine bytes
      (b :: line, rest)

/-- The text that bytes encode in UTF-8, if they do. -/
def decode? (bytes : List UInt8) : Option String :=
  String.fromUTF8? ⟨bytes.toArray⟩

/-- The bytes of a text in UTF-8. -/
def encode (s : String) : List UInt8 :=
  s.toUTF8.toList

/-- A line without the line feeds and carriage returns at its end. -/
def stripEnd (line : String) : String :=
  String.ofList (dropWhileEnd (fun c => c = '\n' || c = '\r') line.toList)

/-- What follows the first line of a stream that has any byte is shorter. -/
theorem length_cutLine_snd_lt (b : UInt8) (bytes : List UInt8) :
    (cutLine (b :: bytes)).2.length < (b :: bytes).length := by
  induction bytes generalizing b with
  | nil => by_cases h : b = lineFeed <;> simp [cutLine, h]
  | cons c bytes ih =>
    by_cases h : b = lineFeed
    · simp [cutLine, h]
    · have := ih c
      rw [cutLine, if_neg h]
      simp only [List.length_cons] at this ⊢
      omega

end Scriptling.Text

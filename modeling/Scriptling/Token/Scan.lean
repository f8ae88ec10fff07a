import Scriptling.Source.Position
import Scriptling.Text.Quoted
import Scriptling.Token.Basic

/-!
# From text to tokens

A text is cut, from left to right, into *lexemes*: each is the longest beginning of the
remaining text that is a token or that is skipped. Skipped are runs of blanks and
comments, which run from `//` up to the end of the line. A row of letters, digits and
underscores that does not start with a digit is one lexeme; it is a reserved word if it
is spelled like one as a whole, and a name otherwise. A string runs to the next double
quote, whatever stands between.

Where no lexeme starts, where a number is too large, and where a string is not closed,
the text has no tokens, and the lexeme at fault is reported with its span.
-/

namespace Scriptling

/-- The blanks of a program text. -/
def isBlank (c : Char) : Bool :=
  c = ' ' || c = '\t' || c = '\n' || c = '\r' || c = '\x0c'

/-- The characters a name can start with. -/
def isNameStart (c : Char) : Bool :=
  c.isAlpha || c = '_'

/-- The characters a name can go on with. -/
def isNamePart (c : Char) : Bool :=
  c.isAlphanum || c = '_'

/-- What can be wrong with a lexeme. -/
inductive ScanFault
  /-- a string that is never closed -/
  | unterminatedString
  /-- a number that does not fit into a literal -/
  | numberTooLarge (digits : List Char)
  /-- a character that starts no lexeme -/
  | strayChar (c : Char)
deriving DecidableEq, Repr

/-- The fault in words. -/
def ScanFault.message : ScanFault → String
  | unterminatedString => "unterminated string literal"
  | numberTooLarge digits => "integer literal out of range: " ++ String.ofList digits
  | strayChar c => "unexpected character: " ++ Text.quote (String.ofList [c])

/-- The words for characters that no lexeme can be made of, chosen by the first of them. -/
def ScanFault.words (slice : List Char) : String :=
  if slice.head? = some '"' then "unterminated string literal"
  else if slice.head?.any Char.isDigit then "integer literal out of range: " ++ String.ofList slice
  else "unexpected character: " ++ Text.quote (String.ofList slice)

/-- A fault and where it is. -/
structure ScanError where
  /-- what is wrong -/
  fault : ScanFault
  /-- where it is -/
  span : Span
deriving DecidableEq, Repr

/-- What a lexeme is. -/
inductive LexemeClass
  /-- blanks or a comment -/
  | skipped
  /-- a token -/
  | token (t : Token)
  /-- something wrong -/
  | wrong (f : ScanFault)
deriving DecidableEq, Repr

/-- A lexeme at the start of a text, and the text that follows it. -/
structure Lexeme where
  /-- what it is -/
  is : LexemeClass
  /-- its characters -/
  text : List Char
  /-- what follows -/
  rest : List Char
deriving DecidableEq, Repr

namespace Lexeme

/-- A number: the digits decide whether it fits. -/
def number (digits : List Char) : LexemeClass :=
  match Text.readDigits? digits with
  | some n => .token (.int n)
  | none => .wrong (.numberTooLarge digits)

/-- A word: reserved if it is spelled like a reserved word. -/
def word (letters : List Char) : Token :=
  let s := String.ofList letters
  match Keyword.ofText? s with
  | some k => .word k
  | none => .name s

/-- The characters in a class with which a text goes on after `c`, together with `c`. -/
def takeRun (p : Char → Bool) (c : Char) (cs : List Char) : List Char :=
  c :: cs.takeWhile p

/-- A string that was just opened. -/
def string (cs : List Char) : Lexeme :=
  match cs.dropWhile (· ≠ '"') with
  | [] => ⟨.wrong .unterminatedString, '"' :: cs, []⟩
  | quote :: rest =>
    let inner := cs.takeWhile (· ≠ '"')
    ⟨.token (.str (String.ofList inner)), '"' :: inner ++ [quote], rest⟩

/-- A mark of one character, or nothing that is known. -/
def single (c : Char) (cs : List Char) : Lexeme :=
  match Mark.ofChar? c with
  | some m => ⟨.token (.mark m), [c], cs⟩
  | none => ⟨.wrong (.strayChar c), [c], cs⟩

/-- A mark: of two characters if possible. -/
def mark (c : Char) : List Char → Lexeme
  | [] => single c []
  | d :: cs =>
    match Mark.ofPair? c d with
    | some m => ⟨.token (.mark m), [c, d], cs⟩
    | none => single c (d :: cs)

/-- The first lexeme of a text that starts with `c`. -/
def first (c : Char) (cs : List Char) : Lexeme :=
  if isBlank c then
    ⟨.skipped, takeRun isBlank c cs, cs.dropWhile isBlank⟩
  else if c = '/' && cs.head? = some '/' then
    ⟨.skipped, takeRun (· ≠ '\n') c cs, cs.dropWhile (· ≠ '\n')⟩
  else if c.isDigit then
    ⟨number (takeRun Char.isDigit c cs), takeRun Char.isDigit c cs, cs.dropWhile Char.isDigit⟩
  else if isNameStart c then
    ⟨.token (word (takeRun isNamePart c cs)), takeRun isNamePart c cs, cs.dropWhile isNamePart⟩
  else if c = '"' then
    string cs
  else
    mark c cs

theorem takeRun_append (p : Char → Bool) (c : Char) (cs : List Char) :
    takeRun p c cs ++ cs.dropWhile p = c :: cs := by
  simp [takeRun, List.takeWhile_append_dropWhile]

theorem string_append (cs : List Char) :
    (string cs).text ++ (string cs).rest = '"' :: cs := by
  unfold string
  split
  · simp
  · next q rest e =>
    have h := List.takeWhile_append_dropWhile (p := fun c => decide (c ≠ '"')) (l := cs)
    rw [e] at h
    simp only [List.cons_append, List.append_assoc, List.nil_append, h]

theorem single_append (c : Char) (cs : List Char) :
    (single c cs).text ++ (single c cs).rest = c :: cs := by
  unfold single
  split <;> rfl

theorem mark_append (c : Char) (cs : List Char) :
    (mark c cs).text ++ (mark c cs).rest = c :: cs := by
  unfold mark
  split
  · exact single_append c []
  · split
    · rfl
    · exact single_append c _

/-- A lexeme and what follows it make up the text. -/
theorem text_append_rest (c : Char) (cs : List Char) :
    (first c cs).text ++ (first c cs).rest = c :: cs := by
  unfold first
  split
  · exact takeRun_append ..
  split
  · exact takeRun_append ..
  split
  · exact takeRun_append ..
  split
  · exact takeRun_append ..
  split
  · next h => rw [h, string_append]
  · exact mark_append ..

/-- A lexeme has at least one character. -/
theorem text_ne_nil (c : Char) (cs : List Char) : (first c cs).text ≠ [] := by
  unfold first string mark single takeRun
  repeat' split
  all_goals simp

/-- What follows a lexeme is shorter than the text. -/
theorem length_rest_lt (c : Char) (cs : List Char) :
    (first c cs).rest.length < (c :: cs).length := by
  have h := congrArg List.length (text_append_rest c cs)
  have hpos := List.length_pos_iff.mpr (text_ne_nil c cs)
  rw [List.length_append] at h
  omega

end Lexeme

/-- The tokens of a text that starts at byte `offset` of its source. -/
def scanFrom (offset : Nat) : List Char → Except ScanError (List Placed)
  | [] => .ok []
  | c :: cs =>
    let lexeme := Lexeme.first c cs
    let stop := offset + (String.ofList lexeme.text).utf8ByteSize
    match lexeme.is with
    | .skipped => scanFrom stop lexeme.rest
    | .wrong f => .error ⟨f, ⟨offset, stop⟩⟩
    | .token t =>
      match scanFrom stop lexeme.rest with
      | .ok ts => .ok (⟨t, ⟨offset, stop⟩⟩ :: ts)
      | .error e => .error e
termination_by cs => cs.length
decreasing_by all_goals exact Lexeme.length_rest_lt c cs

/-- The tokens of a source, each with its span. -/
def scan (source : List Char) : Except ScanError (List Placed) :=
  scanFrom 0 source

end Scriptling

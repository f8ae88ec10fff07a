import Scriptling.Token.Basic

/-!
# Syntax errors

A row of tokens that is no program is refused at the first token that no program could
have there, or at the end if only something is missing. The error also lists terminals
that could have come instead, in the fixed order of terminals.

Reports provide for three more kinds of obstacles. None of them stands in the way of a row
of tokens: rows have no gaps that are no tokens, a whole program is only recognised at the
end, and no rule refuses the phrases it is made for.
-/

namespace Scriptling

/-- What the parser met where it could not go on. -/
inductive Obstacle
  /-- something at this offset that is no token -/
  | notToken (location : Nat)
  /-- the end of the input; the last token stops at this offset -/
  | endOfInput (stop : Nat)
  /-- a token that does not fit -/
  | token (t : Placed)
  /-- a token behind a whole program -/
  | extra (t : Placed)
  /-- phrases that a rule refused, in its own words -/
  | refused (words : String)
deriving DecidableEq, Repr

/-- A syntax error: what stands in the way, and what could have stood there instead. -/
structure SyntaxError where
  /-- what does not fit -/
  found : Obstacle
  /-- the terminals that would have fitted, in place of a token or at the end -/
  expected : List Terminal
deriving DecidableEq, Repr

/-- One byte from this offset on, if the offset behind it fits into 64 bits. -/
def Span.ofByte? (start : Nat) : Option Span :=
  if start + 1 < UInt64.size then some ⟨start, start + 1⟩ else none

namespace SyntaxError

/-- The place of the error. What is not a token is one byte long. -/
def span (e : SyntaxError) : Span :=
  match e.found with
  | .notToken location | .endOfInput location => ⟨location, location + 1⟩
  | .token t | .extra t => t.span
  | .refused _ => ⟨0, 1⟩

/-- The place of the error in offsets of 64 bits, if there is one. -/
def place? (e : SyntaxError) : Option Span :=
  match e.found with
  | .notToken location | .endOfInput location => Span.ofByte? location
  | .token t | .extra t => some t.span
  | .refused _ => some ⟨0, 1⟩

/-- The place is where the error is, unless it goes on behind the last offset. -/
theorem place?_eq_some {e : SyntaxError} (h : e.span.stop < UInt64.size) :
    e.place? = some e.span := by
  obtain ⟨found, expected⟩ := e
  cases found with
  | notToken location | endOfInput location => exact if_pos h
  | token t | extra t | refused words => rfl

/-- The error in one line. -/
def headline (e : SyntaxError) : String :=
  match e.found with
  | .notToken location => "Invalid token at " ++ location.repr
  | .endOfInput stop => "Unrecognized EOF found at " ++ stop.repr
  | .token t =>
    "Unrecognized token `" ++ t.token.text ++ "` found at "
      ++ t.span.start.repr ++ ":" ++ t.span.stop.repr
  | .extra t =>
    "Extra token " ++ t.token.text ++ " found at "
      ++ t.span.start.repr ++ ":" ++ t.span.stop.repr
  | .refused words => words

/-- A list of alternatives: commas between all but the last two. -/
def alternatives : List String → String
  | [] => ""
  | [a] => a
  | [a, b] => a ++ " or " ++ b
  | a :: rest => a ++ ", " ++ alternatives rest

/-- The error and, on a second line, what would have fitted. -/
def message (e : SyntaxError) : String :=
  match e.expected with
  | [] => e.headline
  | ts => e.headline ++ "\nExpected one of " ++ alternatives (ts.map Terminal.text)

end SyntaxError

end Scriptling

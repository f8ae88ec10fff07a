/-!
# Reserved words

The words that the language keeps for itself: its keywords and the names of its built-in
operations. They are listed in a fixed order, in which syntax errors name them.
-/

namespace Scriptling

/-- The words a program cannot use as names. A trailing underscore sets apart the words
that Lean uses itself. -/
inductive Keyword
  | if_ | then_ | else_ | for_ | to_ | do_ | begin_ | end_ | break_ | continue_ | exit_
  | true_ | false_ | and_ | or_ | not_
  | print | length | position | concatenate | substring | readint | readstr
deriving DecidableEq, Repr

namespace Keyword

/-- All reserved words, in their fixed order. -/
def all : List Keyword :=
  [if_, then_, else_, for_, to_, do_, begin_, end_, break_, continue_, exit_,
    true_, false_, and_, or_, not_,
    print, length, position, concatenate, substring, readint, readstr]

/-- How the word is written. -/
def text : Keyword → String
  | if_ => "if"
  | then_ => "then"
  | else_ => "else"
  | for_ => "for"
  | to_ => "to"
  | do_ => "do"
  | begin_ => "begin"
  | end_ => "end"
  | break_ => "break"
  | continue_ => "continue"
  | exit_ => "exit"
  | true_ => "true"
  | false_ => "false"
  | and_ => "and"
  | or_ => "or"
  | not_ => "not"
  | print => "print"
  | length => "length"
  | position => "position"
  | concatenate => "concatenate"
  | substring => "substring"
  | readint => "readint"
  | readstr => "readstr"

/-- The class name of the word in a token listing. -/
def label : Keyword → String
  | if_ => "If"
  | then_ => "Then"
  | else_ => "Else"
  | for_ => "For"
  | to_ => "To"
  | do_ => "Do"
  | begin_ => "Begin"
  | end_ => "End"
  | break_ => "Break"
  | continue_ => "Continue"
  | exit_ => "Exit"
  | true_ => "True"
  | false_ => "False"
  | and_ => "And"
  | or_ => "Or"
  | not_ => "Not"
  | print => "Print"
  | length => "Length"
  | position => "Position"
  | concatenate => "Concatenate"
  | substring => "Substring"
  | readint => "ReadInt"
  | readstr => "ReadStr"

/-- The reserved word with this spelling, if there is one. -/
def ofText? (s : String) : Option Keyword :=
  all.find? fun k => k.text == s

end Keyword

end Scriptling

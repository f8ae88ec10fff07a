/-!
# JSON values

The data form of trees. Objects keep their members in the order in which they were
given; integers are exact. `Json.pretty` writes a value over several lines, two spaces
deeper for each level.
-/

namespace Scriptling

/-- A JSON value whose numbers are integers. -/
inductive Json
  | null
  | bool (b : Bool)
  | int (n : Int)
  | str (s : String)
  | arr (items : List Json)
  | obj (members : List (String × Json))
deriving Repr, Inhabited

namespace Json

/-- The member of an object with a name; the first one if there are several. -/
def get? (key : String) : Json → Option Json
  | obj members => members.lookup key
  | _ => none

/-- A character inside a JSON string. Characters beyond the controls stand for
themselves. -/
def escape (c : Char) : List Char :=
  if c = '"' then ['\\', '"']
  else if c = '\\' then ['\\', '\\']
  else if c = '\n' then ['\\', 'n']
  else if c = '\r' then ['\\', 'r']
  else if c = '\t' then ['\\', 't']
  else if c = '\x08' then ['\\', 'b']
  else if c = '\x0c' then ['\\', 'f']
  else if c.toNat < 0x20 then
    ['\\', 'u', '0', '0', Nat.digitChar (c.toNat / 16), Nat.digitChar (c.toNat % 16)]
  else [c]

/-- A JSON string. -/
def quote (s : String) : String :=
  "\"" ++ String.ofList (s.toList.flatMap escape) ++ "\""

/-- An integer in decimal. -/
def number (n : Int) : String :=
  if n < 0 then "-" ++ n.natAbs.repr else n.natAbs.repr

mutual

/-- A value over several lines. `margin` is what the current line starts with. -/
def pretty (margin : String) : Json → String
  | null => "null"
  | bool true => "true"
  | bool false => "false"
  | int n => number n
  | str s => quote s
  | arr [] => "[]"
  | arr (j :: js) =>
    "[\n" ++ margin ++ "  " ++ j.pretty (margin ++ "  ") ++ prettyItems (margin ++ "  ") js
      ++ "\n" ++ margin ++ "]"
  | obj [] => "\x7b\x7d"
  | obj ((key, j) :: ms) =>
    "\x7b\n" ++ margin ++ "  " ++ quote key ++ ": " ++ j.pretty (margin ++ "  ")
      ++ prettyMembers (margin ++ "  ") ms ++ "\n" ++ margin ++ "\x7d"

/-- The further items of a list, each on a new line behind a comma. -/
def prettyItems (margin : String) : List Json → String
  | [] => ""
  | j :: js => ",\n" ++ margin ++ j.pretty margin ++ prettyItems margin js

/-- The further members of an object, each on a new line behind a comma. -/
def prettyMembers (margin : String) : List (String × Json) → String
  | [] => ""
  | (key, j) :: ms =>
    ",\n" ++ margin ++ quote key ++ ": " ++ j.pretty margin ++ prettyMembers margin ms

end

mutual

/-- How deep a value is nested. -/
def height : Json → Nat
  | arr items => heightItems items + 1
  | obj members => heightMembers members + 1
  | _ => 1

/-- The greatest height in a list. -/
def heightItems : List Json → Nat
  | [] => 0
  | j :: js => max j.height (heightItems js)

/-- The greatest height among members. -/
def heightMembers : List (String × Json) → Nat
  | [] => 0
  | (_, j) :: ms => max j.height (heightMembers ms)

end

end Json

end Scriptling

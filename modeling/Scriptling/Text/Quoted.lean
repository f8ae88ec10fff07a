import Scriptling.Text.Visible

/-!
# Quoted text

A text between double quotes, as it appears in messages and token listings. Quote,
backslash, tab, line feed, carriage return and the null character have escapes of two
characters; every other character that does not show is written by its code point in
hexadecimal digits.
-/

namespace Scriptling.Text

/-- A character inside quotes. -/
def escape (c : Char) : List Char :=
  if c = '"' then ['\\', '"']
  else if c = '\\' then ['\\', '\\']
  else if c = '\t' then ['\\', 't']
  else if c = '\n' then ['\\', 'n']
  else if c = '\r' then ['\\', 'r']
  else if c = Char.ofNat 0 then ['\\', '0']
  else if isVisible c then [c]
  else ['\\', 'u', '\x7b'] ++ Nat.toDigits 16 c.toNat ++ ['\x7d']

/-- The text in quotes. -/
def quote (s : String) : String :=
  "\"" ++ String.ofList (s.toList.flatMap escape) ++ "\""

end Scriptling.Text

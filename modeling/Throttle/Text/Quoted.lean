import Throttle.Text.Printable

/-!
Quoted text for diagnostics: quotes and backslashes are escaped, and so is every character that
would not show.
-/

namespace Throttle.Text.Quoted

/-- A code point in lowercase hexadecimal. -/
def hex (n : Nat) : List Char := Nat.toDigits 16 n

/-- One character between quotes. -/
def char (c : Char) : List Char :=
  if c == '"' then ['\\', '"']
  else if c == '\\' then ['\\', '\\']
  else if c == '\n' then ['\\', 'n']
  else if c == '\r' then ['\\', 'r']
  else if c == '\t' then ['\\', 't']
  else if c.toNat == 0 then ['\\', '0']
  else if isPrintable c then [c]
  else ['\\', 'u', '\x7b'] ++ hex c.toNat ++ ['\x7d']

/-- A text between quotes. -/
def text (s : String) : String :=
  String.ofList ('"' :: s.toList.flatMap char ++ ['"'])

/-- A list of pairs in braces. -/
def mapping (pairs : List (String × String)) : String :=
  "\x7b" ++ ", ".intercalate (pairs.map fun (k, v) => text k ++ ": " ++ text v) ++ "\x7d"

end Throttle.Text.Quoted

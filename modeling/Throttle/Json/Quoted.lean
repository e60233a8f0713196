/-!
Strings of JSON documents. `quote` writes a text between quotes, `unquoted` reads what follows an
opening quote, and `skipQuoted` passes over it without looking at the characters it stands for.
-/

namespace Throttle.Json

/-- The four lowercase hexadecimal digits of a code unit. -/
def hex4 (n : Nat) : List Char :=
  [n / 4096 % 16, n / 256 % 16, n / 16 % 16, n % 16].map Nat.digitChar

/-- One character of a string as it is written. -/
def escape (c : Char) : List Char :=
  if c == '"' then ['\\', '"']
  else if c == '\\' then ['\\', '\\']
  else if c == '\n' then ['\\', 'n']
  else if c == '\r' then ['\\', 'r']
  else if c == '\t' then ['\\', 't']
  else if c.toNat == 8 then ['\\', 'b']
  else if c.toNat == 12 then ['\\', 'f']
  else if c.toNat < 0x20 then '\\' :: 'u' :: hex4 c.toNat
  else [c]

/-- A text as a string of JSON. -/
def quote (s : String) : String :=
  String.ofList ('"' :: s.toList.flatMap escape ++ ['"'])

/-- The value of a hexadecimal digit in either case. -/
def hexValue? (c : Char) : Option Nat :=
  if c.isDigit then some (c.toNat - 48)
  else if 'a' ≤ c && c ≤ 'f' then some (c.toNat - 87)
  else if 'A' ≤ c && c ≤ 'F' then some (c.toNat - 55)
  else none

/-- The character that a short escape stands for. -/
def shortEscape? (c : Char) : Option Char :=
  if c == '"' || c == '\\' || c == '/' then some c
  else if c == 'b' then some (Char.ofNat 8)
  else if c == 'f' then some (Char.ofNat 12)
  else if c == 'n' then some '\n'
  else if c == 'r' then some '\r'
  else if c == 't' then some '\t'
  else none

def isHigh (n : Nat) : Bool := 0xD800 ≤ n && n < 0xDC00

def isLow (n : Nat) : Bool := 0xDC00 ≤ n && n < 0xE000

/-- Where a reader stands within a string. -/
inductive Spot where
  /-- Between characters. -/
  | plain
  /-- After a backslash. -/
  | slash
  /-- In a code unit with `owed` digits to come; `high` is the first half of a pair. -/
  | digits (owed unit : Nat) (high : Option Nat)
  /-- After the first half of a pair. -/
  | paired (high : Nat)
  /-- After the backslash behind the first half of a pair. -/
  | pairedSlash (high : Nat)

/-- What a complete code unit makes of the characters so far: a character, or half of a pair. -/
def unit? (n : Nat) : Option Nat → Option (Option Char × Spot)
  | none =>
    if isHigh n then some (none, .paired n)
    else if isLow n then none
    else some (some (Char.ofNat n), .plain)
  | some high =>
    if isLow n then
      some (some (Char.ofNat (0x10000 + (high - 0xD800) * 0x400 + (n - 0xDC00))), .plain)
    else none

/-- Takes one character that does not end the string. -/
def advance? (spot : Spot) (c : Char) : Option (Option Char × Spot) :=
  match spot with
  | .plain =>
    if c == '\\' then some (none, .slash)
    else if c.toNat < 0x20 then none
    else some (some c, .plain)
  | .slash =>
    if c == 'u' then some (none, .digits 4 0 none)
    else (shortEscape? c).map fun d => (some d, .plain)
  | .digits owed n high =>
    match hexValue? c with
    | none => none
    | some d =>
      let n := n * 16 + d
      if owed ≤ 1 then unit? n high else some (none, .digits (owed - 1) n high)
  | .paired high => if c == '\\' then some (none, .pairedSlash high) else none
  | .pairedSlash high =>
    if c == 'u' then some (none, .digits 4 0 (some high)) else none

/-- Reads a string up to its closing quote: the text, and what follows. -/
def unquotedFrom (spot : Spot) : List Char → Option (List Char × List Char)
  | [] => none
  | c :: cs =>
    match spot, c == '"' with
    | .plain, true => some ([], cs)
    | spot, _ =>
      match advance? spot c with
      | none => none
      | some (out, spot) =>
        (unquotedFrom spot cs).map fun (text, rest) => (out.toList ++ text, rest)

def unquoted (cs : List Char) : Option (List Char × List Char) := unquotedFrom .plain cs

/-- Where a reader stands in a string of which it only looks for the end. -/
inductive Skip where
  | plain
  | slash
  | digits (owed : Nat)

/-- Passes over a string whose escapes may stand for no character. -/
def skipQuotedFrom (skip : Skip) : List Char → Option (List Char)
  | [] => none
  | c :: cs =>
    match skip with
    | .plain =>
      if c == '"' then some cs
      else if c == '\\' then skipQuotedFrom .slash cs
      else if c.toNat < 0x20 then none
      else skipQuotedFrom .plain cs
    | .slash =>
      if c == 'u' then skipQuotedFrom (.digits 4) cs
      else if (shortEscape? c).isSome then skipQuotedFrom .plain cs
      else none
    | .digits owed =>
      if (hexValue? c).isNone then none
      else if owed ≤ 1 then skipQuotedFrom .plain cs
      else skipQuotedFrom (.digits (owed - 1)) cs

def skipQuoted (cs : List Char) : Option (List Char) := skipQuotedFrom .plain cs

end Throttle.Json

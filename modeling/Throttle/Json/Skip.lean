import Throttle.Json.Quoted

/-!
Passing over a JSON value of any kind. The fuel counts nested values and elements, so the length of
the text is always enough.
-/

namespace Throttle.Json

/-- The white space of JSON. -/
def isSpace (c : Char) : Bool := c == ' ' || c == '\n' || c == '\t' || c == '\r'

def dropSpace (cs : List Char) : List Char := cs.dropWhile isSpace

/-- At least one digit. -/
def skipDigits (cs : List Char) : Option (List Char) :=
  match cs with
  | c :: cs => if c.isDigit then some (cs.dropWhile Char.isDigit) else none
  | [] => none

/-- The digits before the point; a zero stands alone. -/
def skipInteger : List Char → Option (List Char)
  | '0' :: c :: cs => if c.isDigit then none else some (c :: cs)
  | cs => skipDigits cs

def skipFraction : List Char → Option (List Char)
  | '.' :: cs => skipDigits cs
  | cs => some cs

def skipExponent : List Char → Option (List Char)
  | c :: cs =>
    if c == 'e' || c == 'E' then
      match cs with
      | '+' :: cs => skipDigits cs
      | '-' :: cs => skipDigits cs
      | cs => skipDigits cs
    else some (c :: cs)
  | [] => some []

def skipNumber (cs : List Char) : Option (List Char) :=
  skipInteger cs >>= skipFraction >>= skipExponent

/-- One expected character. -/
def expect (c : Char) : List Char → Option (List Char)
  | d :: cs => if d = c then some cs else none
  | [] => none

mutual

/-- Passes over one value. -/
def skipValue : Nat → List Char → Option (List Char)
  | 0, _ => none
  | fuel + 1, cs =>
    match dropSpace cs with
    | '"' :: cs => skipQuoted cs
    | '[' :: cs =>
      match dropSpace cs with
      | ']' :: cs => some cs
      | cs => skipElements fuel cs
    | '\x7b' :: cs =>
      match dropSpace cs with
      | '\x7d' :: cs => some cs
      | cs => skipMembers fuel cs
    | 't' :: 'r' :: 'u' :: 'e' :: cs => some cs
    | 'f' :: 'a' :: 'l' :: 's' :: 'e' :: cs => some cs
    | 'n' :: 'u' :: 'l' :: 'l' :: cs => some cs
    | '-' :: cs => skipNumber cs
    | cs => skipNumber cs

/-- Passes over the elements of an array and its end. -/
def skipElements : Nat → List Char → Option (List Char)
  | 0, _ => none
  | fuel + 1, cs =>
    match skipValue fuel cs with
    | none => none
    | some cs =>
      match dropSpace cs with
      | ',' :: cs => skipElements fuel cs
      | ']' :: cs => some cs
      | _ => none

/-- Passes over the members of an object and its end. -/
def skipMembers : Nat → List Char → Option (List Char)
  | 0, _ => none
  | fuel + 1, cs =>
    match expect '"' (dropSpace cs) >>= skipQuoted >>= fun cs => expect ':' (dropSpace cs) with
    | none => none
    | some cs =>
      match skipValue fuel cs with
      | none => none
      | some cs =>
        match dropSpace cs with
        | ',' :: cs => skipMembers fuel cs
        | '\x7d' :: cs => some cs
        | _ => none

end

/-- The text of a document that holds one string. -/
def text? (s : String) : Option String := do
  let (text, rest) ← expect '"' (dropSpace s.toList) >>= unquoted
  if (dropSpace rest).isEmpty then some (String.ofList text) else none

/-- Passes over a value at the front of a text. -/
def skip (cs : List Char) : Option (List Char) := skipValue (2 * cs.length + 2) cs

end Throttle.Json

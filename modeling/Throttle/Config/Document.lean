import Throttle.Config.Basic
import Throttle.Json.Skip
import Throttle.Text.Numeral
import Throttle.Text.Quoted

/-!
Configurations as JSON documents. `Config.document` writes every setting; `Config.ofDocument?`
reads an object with some of the settings in any order, or an array with the first of them. What
cannot be read is reported with its place.
-/

namespace Throttle

/-- Where a document cannot be read. -/
inductive Place where
  /-- Outside every value. -/
  | document
  /-- At the next key of the object or its end. -/
  | nextKey
  /-- At the value of a key. -/
  | member (key : String)
  /-- At an element of the array. -/
  | element (index : Nat)
  deriving DecidableEq, Repr

namespace Place

def path : Place → String
  | document => "."
  | nextKey => "?"
  | member key => key
  | element index => "[" ++ toString index ++ "]"

end Place

/-- What one member of a document says. -/
inductive Assignment where
  | number (setting : Setting) (value : UInt64)
  | userAgent (value : Option String)
  deriving DecidableEq, Repr

namespace Assignment

def key : Assignment → String
  | number s _ => s.key
  | userAgent _ => userAgentKey

def apply (c : Config) : Assignment → Config
  | number s n => c.set s n
  | userAgent v => { c with userAgent := v }

/-- The written form of a value. -/
def value : Assignment → List Char
  | number _ n => Text.decimal n.toNat
  | userAgent none => "null".toList
  | userAgent (some s) => (Json.quote s).toList

/-- The written form of a member. -/
def chars (a : Assignment) : List Char :=
  (Json.quote a.key).toList ++ ':' :: a.value

end Assignment

namespace Config

open Json

/-- The configuration that some members describe; what they leave out has its default. -/
def ofAssignments (as : List Assignment) : Config := as.foldl Assignment.apply default

/-- Everything that a configuration says, in order. -/
def assignments (c : Config) : List Assignment :=
  Setting.all.map (fun s => .number s (c.number s)) ++ [.userAgent c.userAgent]

def commaSeparatedMembers : List Assignment → List Char
  | [] => []
  | [a] => a.chars
  | a :: as => a.chars ++ ',' :: commaSeparatedMembers as

/-- An object with these members. -/
def objectChars (as : List Assignment) : List Char :=
  '\x7b' :: commaSeparatedMembers as ++ ['\x7d']

/-- The document of a configuration. -/
def document (c : Config) : String := String.ofList (objectChars c.assignments)

/-- Reads a whole number of 64 bits: no sign, no leading zero, no fraction and no exponent. -/
def word64 (cs : List Char) : Option (UInt64 × List Char) :=
  let ds := cs.takeWhile Char.isDigit
  let rest := cs.dropWhile Char.isDigit
  match ds, rest with
  | '0' :: _ :: _, _ => none
  | _, '.' :: _ => none
  | _, 'e' :: _ => none
  | _, 'E' :: _ => none
  | ds, rest =>
    ((Text.digits? ds).filter (· < UInt64.size)).map fun n => (UInt64.ofNat n, rest)

/-- Reads a text or nothing. -/
def optionalText (cs : List Char) : Option (Option String × List Char) :=
  match cs with
  | 'n' :: 'u' :: 'l' :: 'l' :: cs => some (none, cs)
  | '"' :: cs => (unquoted cs).map fun (s, cs) => (some (String.ofList s), cs)
  | _ => none

/-- Reads the value of a key, which may be none of a setting. -/
def memberValue (key : String) (cs : List Char) : Option (Option Assignment × List Char) :=
  match Setting.ofKey? key with
  | some s => (word64 (dropSpace cs)).map fun (n, cs) => (some (.number s n), cs)
  | none =>
    if key = userAgentKey then
      (optionalText (dropSpace cs)).map fun (v, cs) => (some (.userAgent v), cs)
    else (skip cs).map fun cs => (none, cs)

/-- Reads the members of an object, given those before. -/
def members : Nat → List Assignment → List Char → Except Place (List Assignment)
  | 0, _, _ => .error .nextKey
  | fuel + 1, done, cs =>
    match expect '"' (dropSpace cs) >>= unquoted with
    | none => .error .nextKey
    | some (text, cs) =>
      let key := String.ofList text
      if done.any (·.key = key) then .error .document
      else
        match expect ':' (dropSpace cs) with
        | none => .error .document
        | some cs =>
          match memberValue key cs with
          | none => .error (.member key)
          | some (a, cs) =>
            let done := done ++ a.toList
            match dropSpace cs with
            | ',' :: cs => members fuel done cs
            | '\x7d' :: _ => .ok done
            | _ => .error .nextKey

/-- Reads the value at a position of an array. -/
def elementValue (index : Nat) (cs : List Char) : Option (Assignment × List Char) :=
  match Setting.all[index]? with
  | some s => (word64 cs).map fun (n, cs) => (.number s n, cs)
  | none => (optionalText cs).map fun (v, cs) => (.userAgent v, cs)

/-- Reads the elements of an array that is not empty, from `index` on. -/
def elements : Nat → Nat → List Assignment → List Char → Except Place (List Assignment)
  | 0, _, _, _ => .error .document
  | left + 1, index, done, cs =>
    match elementValue index (dropSpace cs) with
    | none => .error (.element index)
    | some (a, cs) =>
      let done := done ++ [a]
      match dropSpace cs with
      | ']' :: _ => .ok done
      | ',' :: cs =>
        match dropSpace cs with
        | [] => .error .document
        | ']' :: _ => .error .document
        | cs => elements left (index + 1) done cs
      | _ => .error .document

/-- What a document says; text after its first value does not count. -/
def readDocument (cs : List Char) : Except Place (List Assignment) :=
  match dropSpace cs with
  | '\x7b' :: cs =>
    match dropSpace cs with
    | '\x7d' :: _ => .ok []
    | cs => members (cs.length + 1) [] cs
  | '[' :: cs =>
    match dropSpace cs with
    | [] => .error .document
    | ']' :: _ => .ok []
    | cs => elements (Setting.all.length + 1) 0 [] cs
  | _ => .error .document

/-- Reads a configuration that a limiter can run on. -/
def ofDocument? (text : String) : Except ConfigError Config :=
  match readDocument text.toList with
  | .error place => .error (.parse place.path)
  | .ok as =>
    let c := ofAssignments as
    match c.fault? with
    | some e => .error e
    | none => .ok c

/-- The written form for diagnostics, with the settings in order. -/
def describe (c : Config) : String :=
  let numbers := Setting.all.map fun s => s.key ++ ": " ++ toString (c.number s)
  let agent := match c.userAgent with
    | none => "None"
    | some s => "Some(" ++ Text.Quoted.text s ++ ")"
  "SchedulerConfig \x7b " ++ ", ".intercalate (numbers ++ [userAgentKey ++ ": " ++ agent]) ++
    " \x7d"

/-- The written form of what a limiter is built from. -/
def describeBuilder (c : Config) : String :=
  "RateLimiterBuilder \x7b clock: SystemClock, config: " ++ c.describe ++ ", .. \x7d"

end Config

end Throttle

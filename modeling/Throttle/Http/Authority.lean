import Throttle.Http.Host
import Throttle.Http.UrlPath
import Throttle.Text.Numeral

/-!
Authorities of web addresses: who asks, and whom. Special schemes know domains and imply a port.
-/

namespace Throttle.Http

/-- The special schemes, with the ports they imply. -/
def specialSchemes : List (String × Option Nat) :=
  [("http", some 80), ("https", some 443), ("ws", some 80), ("wss", some 443), ("ftp", some 21),
    ("file", none)]

def isSpecial (scheme : String) : Bool := (specialSchemes.lookup scheme).isSome

def impliedPort (scheme : String) : Option Nat := (specialSchemes.lookup scheme).join

/-- The part of an address that names a server. -/
structure Authority where
  /-- User and password with the sign after them, if there are any. -/
  user : String
  host : Host
  port : Option Nat
  deriving DecidableEq, Repr

namespace Authority

def render (a : Authority) : String :=
  let port := match a.port with
    | none => ""
    | some p => ":" ++ toString p
  a.user ++ a.host.render ++ port

def userReserved : List Char :=
  UrlPath.reserved ++ ['/', ':', ';', '=', '@', '[', ']', '^', '|', '\\']

/-- The port after a host; none is given if the colon ends the authority. -/
def port? (implied : Option Nat) : List Char → Option (Option Nat)
  | [] => some none
  | ':' :: [] => some none
  | ':' :: ds =>
    ((Text.digits? ds).filter (· < 65536)).map fun p => if some p = implied then none else some p
  | _ => none

/-- User and password in front of a host, in percent codes, with the sign after them. -/
def userText (cs : List Char) : String :=
  match Text.pieces ':' cs with
  | [] => ""
  | [u] => if u.isEmpty then "" else escape userReserved u ++ "@"
  | u :: rest =>
    let word := escape userReserved ((rest.intersperse [':']).flatten)
    let name := escape userReserved u
    if name.isEmpty && word.isEmpty then ""
    else if word.isEmpty then name ++ "@"
    else name ++ ":" ++ word ++ "@"

/-- Cuts before the first colon that is not between brackets. -/
def cutPort (inside : Bool) : List Char → List Char × List Char
  | [] => ([], [])
  | c :: cs =>
    if c == ':' && !inside then ([], c :: cs)
    else
      let (front, back) := cutPort (c == '[' || (inside && c != ']')) cs
      (c :: front, back)

/-- Reads what stands between two slashes and the path. A backslash ends a port, and the path starts
with it. -/
def ofChars? (scheme : String) (cs : List Char) : Option (Authority × List Char) := do
  let special := isSpecial scheme
  let behind := (cs.reverse.takeWhile (· != '@')).reverse
  let user := userText (cs.take (cs.length - behind.length - 1))
  let (host, rest) := cutPort false behind
  guard (!host.isEmpty || (!special && user.isEmpty && rest.isEmpty))
  let port := rest.takeWhile (· != '\\')
  let authority := {
    user
    host := ← Host.ofChars? special host
    port := ← port? (impliedPort scheme) port }
  return (authority, rest.drop port.length)

/-- This machine. -/
def here : Authority := ⟨"", .name "", none⟩

/-- The machine that holds a file. -/
def ofFile? (cs : List Char) : Option Authority :=
  if cs.isEmpty then some here
  else
    (Host.ofChars? true cs).map fun host =>
      if host = .name "localhost" then here else ⟨"", host, none⟩

end Authority

end Throttle.Http

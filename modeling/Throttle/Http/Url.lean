import Throttle.Http.Authority

/-!
Web addresses. `Url.ofString?` brings an address into its normal form: the scheme and the host in
lowercase, no port that the scheme implies, dot segments resolved, and what an address may not
hold written in percent codes.
-/

namespace Throttle.Http

/-- An absolute address in normal form. -/
structure Url where
  scheme : String
  authority : Option Authority
  place : UrlPath
  query : Option String
  fragment : Option String
  deriving DecidableEq, Repr

namespace Url

def path (u : Url) : String := u.place.render

/-- The written form. A path that starts with two slashes would read as an authority, so a single
dot stands before it where there is none. -/
def render (u : Url) : String :=
  let front := match u.authority, u.place with
    | some a, _ => "//" ++ a.render
    | none, .segments ("" :: _ :: _) => "/."
    | none, _ => ""
  let query := match u.query with
    | none => ""
    | some q => "?" ++ q
  let fragment := match u.fragment with
    | none => ""
    | some f => "#" ++ f
  u.scheme ++ ":" ++ front ++ u.path ++ query ++ fragment

def fragmentReserved : List Char := [' ', '"', '<', '>', Char.ofNat 96]

def queryReserved (special : Bool) : List Char :=
  [' ', '"', '#', '<', '>'] ++ if special then [Char.ofNat 39] else []

/-- The scheme in lowercase, and what stands after its colon. -/
def scheme? (cs : List Char) : Option (String × List Char) := do
  let name := cs.takeWhile (· != ':')
  guard ((name.head?.any Char.isAlpha) && name.length < cs.length)
  guard (name.all fun c => c.isAlphanum || c == '+' || c == '-' || c == '.')
  return (String.ofList (name.map Char.toLower), cs.drop (name.length + 1))

/-- The machine and the path of a file; a drive is always on this machine. -/
def fileParts? (cs : List Char) : Option (Authority × UrlPath) :=
  let here (path : List Char) := some (Authority.here, UrlPath.segments (UrlPath.fileSegments path))
  let isDrive (s : List Char) : Bool := (UrlPath.drive? s).isSome
  match cs with
  | a :: b :: rest =>
    if UrlPath.isSlash true a && UrlPath.isSlash true b then
      let host := rest.takeWhile (!UrlPath.isSlash true ·)
      if isDrive host then here rest
      else do
        let path := rest.drop host.length
        let machine ← Authority.ofFile? host
        if machine = .here then here path
        else
          let names := UrlPath.segmentsOf true true path
          if names.head?.any (isDrive ·.toList) then return (.here, .segments names)
          else return (machine, .segments (UrlPath.trimFront names))
    else here cs
  | _ => here cs

/-- The server and the path of an address. -/
def parts? (scheme : String) (cs : List Char) : Option (Option Authority × UrlPath) := do
  let special := isSpecial scheme
  let isSlash := UrlPath.isSlash special
  if scheme == "file" then
    let (a, p) ← fileParts? cs
    return (some a, p)
  else if special || cs.take 2 = ['/', '/'] then
    let rest := if special then cs.dropWhile isSlash else cs.drop 2
    let text := rest.takeWhile (!isSlash ·)
    let (authority, behind) ← Authority.ofChars? scheme text
    let path := behind ++ rest.drop text.length
    let names := if path.isEmpty && !special then [] else UrlPath.segmentsOf special false path
    return (some authority, .segments names)
  else if cs.head? = some '/' then return (none, .segments (UrlPath.segmentsOf false false cs))
  else return (none, .plain (escape [] cs))

/-- Reads an absolute address. -/
def ofString? (text : String) : Option Url := do
  let edge (c : Char) : Bool := c.toNat ≤ 0x20
  let cs := ((text.toList.dropWhile edge).reverse.dropWhile edge).reverse
  let cs := cs.filter fun c => c != '\t' && c != '\n' && c != '\r'
  let (scheme, cs) ← scheme? cs
  let ends (c : Char) : Bool := c == '?' || c == '#'
  let (authority, place) ← parts? scheme (cs.takeWhile (!ends ·))
  let rest := cs.dropWhile (!ends ·)
  let query := match rest with
    | '?' :: q => some (escape (queryReserved (isSpecial scheme)) (q.takeWhile (· != '#')))
    | _ => none
  let fragment := match rest.dropWhile (· != '#') with
    | '#' :: f => some (escape fragmentReserved f)
    | _ => none
  return { scheme, authority, place, query, fragment }

end Url

end Throttle.Http

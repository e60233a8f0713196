import Throttle.Http.Percent
import Throttle.Text.Blank

/-!
Paths of web addresses, with their dot segments resolved.
-/

namespace Throttle.Http

/-- Where an address leads on its server. -/
inductive UrlPath where
  /-- Segments, each after a slash. -/
  | segments (names : List String)
  /-- A text without structure. -/
  | plain (text : String)
  deriving DecidableEq, Repr

namespace UrlPath

def render : UrlPath → String
  | segments names => String.join (names.map ("/" ++ ·))
  | plain text => text

def reserved : List Char :=
  [' ', '"', '#', '<', '>', '?', Char.ofNat 96, Char.ofNat 123, Char.ofNat 125]

/-- A segment that stands for its own directory. -/
def isSingleDot (cs : List Char) : Bool :=
  [".", "%2e"].contains (String.ofList (cs.map Char.toLower))

/-- A segment that stands for the directory above. -/
def isDoubleDot (cs : List Char) : Bool :=
  ["..", ".%2e", "%2e.", "%2e%2e"].contains (String.ofList (cs.map Char.toLower))

/-- A letter that names a drive. -/
def drive? : List Char → Option Char
  | [c, ':'] => if c.isAlpha then some c else none
  | [c, '|'] => if c.isAlpha then some c else none
  | _ => none

/-- A segment that names a drive; more may follow behind a backslash. -/
def opensDrive : List Char → Bool
  | c :: d :: rest => c.isAlpha && (d == ':' || d == '|') && rest.head?.all (· == '\\')
  | _ => false

/-- Goes to the directory above; there is none above a drive. -/
def ascend : List String → List String
  | [] => []
  | s :: done => if opensDrive s.toList then s :: done else done

/-- Goes on to a segment; a drive in front of the path of a file is written with a colon. -/
def descend (file : Bool) (done : List String) (s : List Char) : List String :=
  match file, done, drive? s with
  | true, [], some c => [String.ofList [c, ':']]
  | _, _, _ => escape reserved s :: done

/-- Resolves dot segments; `done` holds the segments so far, the last one first. -/
def resolve (file : Bool) (done : List String) : List (List Char) → List String
  | [] => done.reverse
  | s :: rest =>
    let last := rest.isEmpty
    if isDoubleDot s then
      let above := ascend done
      resolve file (if last then "" :: above else above) rest
    else if isSingleDot s then resolve file (if last then "" :: done else done) rest
    else resolve file (descend file done s) rest

def isSlash (special : Bool) (c : Char) : Bool := c == '/' || (special && c == '\\')

/-- Cuts a path at its slashes. -/
def cut (special : Bool) (cs : List Char) : List (List Char) :=
  Text.pieces '/' (cs.map fun c => if isSlash special c then '/' else c)

/-- The segments of a path, whose first slash may be missing. -/
def segmentsOf (special file : Bool) (cs : List Char) : List String :=
  resolve file [] (cut special (if cs.head?.any (isSlash special) then cs.drop 1 else cs))

/-- Drops empty segments in front. -/
def trimFront : List String → List String
  | "" :: s :: rest => trimFront (s :: rest)
  | names => names

/-- The segments of the path of a file on this machine, which has no empty ones in front. A drive
behind a slash stays as it is. -/
def fileSegments (cs : List Char) : List String := trimFront (resolve true [] (cut true cs))

end UrlPath

end Throttle.Http

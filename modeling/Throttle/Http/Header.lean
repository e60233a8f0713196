import Throttle.Text.Blank
import Throttle.Text.Utf8

/-!
Header fields. Names are tokens in lowercase; values are octets without control characters. A
header map keeps the order in which its names first came, and every value of a name.
-/

namespace Throttle.Http

/-- The characters of a token. -/
def isTokenChar (c : Char) : Bool :=
  c.isAlphanum || "!#$%&'*+-.^_`|~".toList.contains c

def lowercase (s : String) : String := String.ofList (s.toList.map Char.toLower)

/-- The name of a header field, a token in lowercase. -/
structure HeaderName where
  text : String
  deriving DecidableEq, Repr

/-- Reads a header name in either case. -/
def HeaderName.ofString? (s : String) : Option HeaderName :=
  if !s.isEmpty && s.toList.all isTokenChar then some ⟨lowercase s⟩ else none

/-- The octets a header value may hold: the horizontal tab, and all from the space on but 127. -/
def isValueOctet (b : UInt8) : Bool := b == 9 || (32 ≤ b && b != 127)

/-- The octets of a header value that may be read as text. -/
def isTextOctet (b : UInt8) : Bool := b == 9 || (32 ≤ b && b < 127)

/-- The value of a header field; a sensitive one is a credential. -/
structure HeaderValue where
  octets : List UInt8
  sensitive : Bool := false
  deriving DecidableEq, Repr

namespace HeaderValue

def ofOctets? (bs : List UInt8) : Option HeaderValue :=
  if bs.all isValueOctet then some { octets := bs } else none

def ofString? (s : String) : Option HeaderValue := ofOctets? (Text.Utf8.encode s)

/-- The value as characters, where every octet is visible or blank. -/
def chars? (v : HeaderValue) : Option (List Char) :=
  if v.octets.all isTextOctet then some (v.octets.map fun b => Char.ofNat b.toNat) else none

end HeaderValue

/-- Header fields in the order in which their names first came. -/
structure Headers where
  fields : List (HeaderName × List HeaderValue)
  deriving DecidableEq, Repr

namespace Headers

def empty : Headers := ⟨[]⟩

/-- Every value of a name, in order. -/
def values (h : Headers) (n : HeaderName) : List HeaderValue :=
  (h.fields.lookup n).getD []

/-- The first value of a name, given in either case; a text that is no name has none. -/
def get? (h : Headers) (name : String) : Option HeaderValue :=
  (HeaderName.ofString? name).bind fun n => (h.values n).head?

/-- Changes the values of a name in place, or adds the name at the end. -/
def update (n : HeaderName) (f : List HeaderValue → List HeaderValue) :
    List (HeaderName × List HeaderValue) → List (HeaderName × List HeaderValue)
  | [] => [(n, f [])]
  | (m, vs) :: rest => if m = n then (m, f vs) :: rest else (m, vs) :: update n f rest

/-- Adds a value after those the name has. -/
def append (h : Headers) (n : HeaderName) (v : HeaderValue) : Headers :=
  ⟨update n (· ++ [v]) h.fields⟩

/-- Makes a value the only one of its name. -/
def insert (h : Headers) (n : HeaderName) (v : HeaderValue) : Headers :=
  ⟨update n (fun _ => [v]) h.fields⟩

/-- Gives a name a value unless it has one. -/
def insertNew (h : Headers) (n : HeaderName) (v : HeaderValue) : Headers :=
  ⟨update n (fun vs => if vs.isEmpty then [v] else vs) h.fields⟩

/-- One pair for each value, the values of a name together. -/
def toList (h : Headers) : List (HeaderName × HeaderValue) :=
  h.fields.flatMap fun (n, vs) => vs.map fun v => (n, v)

theorem lookup_update_same (n : HeaderName) (f : List HeaderValue → List HeaderValue)
    (l : List (HeaderName × List HeaderValue)) :
    (update n f l).lookup n = some (f ((l.lookup n).getD [])) := by
  induction l with
  | nil => simp [update]
  | cons p rest ih =>
    obtain ⟨m, vs⟩ := p
    by_cases h : m = n
    · simp [update, h]
    · have h' : (n == m) = false := by simpa using fun e => h e.symm
      simp [update, h, List.lookup_cons, h', ih]

theorem lookup_update_other {n k : HeaderName} (hk : k ≠ n)
    (f : List HeaderValue → List HeaderValue) (l : List (HeaderName × List HeaderValue)) :
    (update n f l).lookup k = l.lookup k := by
  have hk' : (k == n) = false := by simpa using hk
  induction l with
  | nil => simp [update, List.lookup_cons, hk']
  | cons p rest ih =>
    obtain ⟨m, vs⟩ := p
    by_cases h : m = n
    · subst h; simp [update, List.lookup_cons, hk']
    · simp [update, h, List.lookup_cons, ih]

theorem values_insert_same (h : Headers) (n : HeaderName) (v : HeaderValue) :
    (h.insert n v).values n = [v] := by
  simp [values, insert, lookup_update_same]

theorem values_insert_other (h : Headers) {n k : HeaderName} (hk : k ≠ n) (v : HeaderValue) :
    (h.insert n v).values k = h.values k := by
  simp [values, insert, lookup_update_other hk]

end Headers

end Throttle.Http

import Throttle.Http.Domain
import Throttle.Http.Percent

/-!
Hosts of web addresses: domains, and numeric addresses of version 4 and 6, each in the one form in
which it is written.
-/

namespace Throttle.Http

/-- Whom an address leads to. -/
inductive Host where
  /-- A domain, or any other name where the scheme knows no domains; it may be empty. -/
  | name (text : String)
  | v4 (address : UInt32)
  /-- Eight groups of sixteen bits. -/
  | v6 (groups : List UInt16)
  deriving DecidableEq, Repr

namespace Host

/-- A number in some base; no digits stand for zero. -/
def numeral? (base : Nat) (cs : List Char) : Option Nat := do
  let ds ← cs.mapM (digitIn? base)
  return ds.foldl (fun n d => n * base + d) 0

/-- A part of an address of version 4: hexadecimal after `0x`, octal after `0`, or else decimal. -/
def part? : List Char → Option Nat
  | [] => none
  | '0' :: 'x' :: ds => numeral? 16 ds
  | '0' :: 'X' :: ds => numeral? 16 ds
  | '0' :: d :: ds => numeral? 8 (d :: ds)
  | ds => numeral? 10 ds

/-- The parts between points; one point at the end does not count. -/
def parts (cs : List Char) : List (List Char) :=
  let ps := Text.pieces '.' cs
  if 1 < ps.length && ps.getLast? == some [] then ps.dropLast else ps

/-- A host whose last part is a number has to be an address of version 4. -/
def endsInNumber (cs : List Char) : Bool :=
  match (parts cs).getLast? with
  | none => false
  | some p => (!p.isEmpty && p.all Char.isDigit) || (part? p).isSome

/-- Reads up to four parts; the last one fills all that the others leave. -/
def v4? (cs : List Char) : Option UInt32 := do
  let ns ← (parts cs).mapM part?
  let last ← ns.getLast?
  let front := ns.dropLast
  let room := 8 * (4 - front.length)
  guard (front.length < 4 && front.all (· < 256) && last >>> room = 0)
  return UInt32.ofNat ((front.foldl (fun n p => n * 256 + p) 0) <<< room + last)

/-- Groups between colons; the last one may be an address of version 4. -/
def groups? : List (List Char) → Option (List Nat)
  | [] => some []
  | [p] =>
    if p.contains '.' then
      (v4? p).map fun a => [a.toNat / 65536, a.toNat % 65536]
    else (numeral? 16 p).map fun n => [n]
  | p :: ps => do return (← numeral? 16 p) :: (← groups? ps)

/-- Cuts at the first `::`. -/
def cutDouble : List Char → Option (List Char × List Char)
  | ':' :: ':' :: cs => some ([], cs)
  | c :: cs => (cutDouble cs).map fun (front, back) => (c :: front, back)
  | [] => none

def groupsOf? (cs : List Char) : Option (List Nat) :=
  if cs.isEmpty then some [] else groups? (Text.pieces ':' cs)

/-- Reads eight groups, of which `::` leaves out some that are zero. -/
def v6? (cs : List Char) : Option (List UInt16) := do
  let ns ← match cutDouble cs with
    | none => groupsOf? cs
    | some (front, back) => do
      let front ← groupsOf? front
      let back ← groupsOf? back
      pure (front ++ List.replicate (8 - front.length - back.length) 0 ++ back)
  guard (ns.length = 8 && ns.all (· < 65536))
  return ns.map UInt16.ofNat

/-- Where the first of the longest runs of zeros starts, and its length. -/
def longestZeros (groups : List UInt16) : Nat × Nat :=
  (List.range groups.length).foldl (fun best i =>
    let n := ((groups.drop i).takeWhile (· == 0)).length
    if best.2 < n then (i, n) else best) (0, 0)

def renderGroups (groups : List UInt16) : String :=
  ":".intercalate (groups.map fun g => String.ofList (Nat.toDigits 16 g.toNat))

/-- The one written form of a host; two or more zeros of version 6 are left out once. -/
def render : Host → String
  | name text => text
  | v4 a =>
    let n := a.toNat
    ".".intercalate
      ([n / 256 / 256 / 256, n / 256 / 256 % 256, n / 256 % 256, n % 256].map toString)
  | v6 groups =>
    let (start, length) := longestZeros groups
    if length < 2 then "[" ++ renderGroups groups ++ "]"
    else
      "[" ++ renderGroups (groups.take start) ++ "::" ++ renderGroups (groups.drop (start + length))
        ++ "]"

/-- No host holds one of these. -/
def isDelimiter (c : Char) : Bool := " \x00\t\n\r#/:<>?@[\\]^|".toList.contains c

/-- No domain holds one of these, a control character or the sign of a percent code either. -/
def isForbidden (c : Char) : Bool :=
  c.toNat < 0x20 || c.toNat == 0x7F || c == '%' || isDelimiter c

/-- Reads a host; only special schemes know domains and addresses of version 4. -/
def ofChars? (special : Bool) (cs : List Char) : Option Host :=
  match cs with
  | '[' :: rest => if rest.getLast? = some ']' then (v6? rest.dropLast).map v6 else none
  | cs =>
    if special then
      let domain := Domain.toAscii (Text.Utf8.decode (unescape cs)).toList
      if domain.isEmpty || domain.any isForbidden then none
      else if endsInNumber domain then (v4? domain).map v4
      else some (name (String.ofList domain))
    else if cs.any isDelimiter then none
    else some (name (escape [] cs))

end Host

end Throttle.Http

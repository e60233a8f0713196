import Throttle.Text.Utf8

/-!
Percent codes, with which an address writes the octets that it may not hold as they are.
-/

namespace Throttle.Http

def hexDigit (n : Nat) : Char := (Nat.digitChar n).toUpper

/-- An octet in percent code. -/
def percent (b : UInt8) : List Char := ['%', hexDigit (b.toNat / 16), hexDigit (b.toNat % 16)]

/-- Writes what is not plain ASCII, or belongs to `reserved`, in percent codes. -/
def escape (reserved : List Char) (cs : List Char) : String :=
  String.ofList <| cs.flatMap fun c =>
    if c.toNat < 0x20 || c.toNat > 0x7E || reserved.contains c then
      (Text.Utf8.encode (String.singleton c)).flatMap percent
    else [c]

/-- The value of a digit in a base up to 16. -/
def digitIn? (base : Nat) (c : Char) : Option Nat :=
  let n :=
    if c.isDigit then c.toNat - '0'.toNat
    else if 'a' ≤ c ∧ c ≤ 'f' then c.toNat - 'a'.toNat + 10
    else if 'A' ≤ c ∧ c ≤ 'F' then c.toNat - 'A'.toNat + 10
    else 16
  if n < base then some n else none

/-- The octets of a text in which percent codes may stand for octets. -/
def unescape : List Char → List UInt8
  | [] => []
  | '%' :: a :: b :: cs =>
    match digitIn? 16 a, digitIn? 16 b with
    | some x, some y => UInt8.ofNat (x * 16 + y) :: unescape cs
    | _, _ => 0x25 :: unescape (a :: b :: cs)
  | c :: cs => Text.Utf8.encode (String.singleton c) ++ unescape cs

end Throttle.Http

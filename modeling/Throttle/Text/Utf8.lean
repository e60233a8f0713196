/-!
Octets as text. `encode` gives the UTF-8 octets of a text; `decode` reads any octets, with one
replacement character for each longest run that starts a character and cannot be finished.
-/

namespace Throttle.Text.Utf8

/-- The UTF-8 octets of a text. -/
def encode (s : String) : List UInt8 := s.toUTF8.toList

/-- The first octet of a character: how many octets follow, the bits it carries, and the range of
the next octet. -/
def lead? (b : UInt8) : Option (Nat × Nat × UInt8 × UInt8) :=
  let n := b.toNat
  if n < 0x80 then some (0, n, 0x80, 0xBF)
  else if n < 0xC2 then none
  else if n < 0xE0 then some (1, n - 0xC0, 0x80, 0xBF)
  else if n == 0xE0 then some (2, 0, 0xA0, 0xBF)
  else if n == 0xED then some (2, 0xD, 0x80, 0x9F)
  else if n < 0xF0 then some (2, n - 0xE0, 0x80, 0xBF)
  else if n == 0xF0 then some (3, 0, 0x90, 0xBF)
  else if n < 0xF4 then some (3, n - 0xF0, 0x80, 0xBF)
  else if n == 0xF4 then some (3, 4, 0x80, 0x8F)
  else none

/-- A character of which `owed` octets are still to come, the next one within `low` and `high`. -/
structure Partial where
  owed : Nat
  bits : Nat
  low : UInt8
  high : UInt8

def replacement : Char := Char.ofNat 0xFFFD

/-- Starts a character at an octet. -/
def start (b : UInt8) : List Char × Option Partial :=
  match lead? b with
  | none => ([replacement], none)
  | some (0, bits, _, _) => ([Char.ofNat bits], none)
  | some (owed, bits, low, high) => ([], some ⟨owed, bits, low, high⟩)

/-- Takes one octet: the characters it completes and what remains open. -/
def step : Option Partial → UInt8 → List Char × Option Partial
  | none, b => start b
  | some p, b =>
    if p.low ≤ b && b ≤ p.high then
      let bits := p.bits * 64 + (b.toNat - 0x80)
      if p.owed ≤ 1 then ([Char.ofNat bits], none)
      else ([], some ⟨p.owed - 1, bits, 0x80, 0xBF⟩)
    else
      let (cs, next) := start b
      (replacement :: cs, next)

def decodeFrom : Option Partial → List UInt8 → List Char
  | none, [] => []
  | some _, [] => [replacement]
  | p, b :: bs =>
    let (cs, next) := step p b
    cs ++ decodeFrom next bs

/-- The text of a run of octets. -/
def decode (bs : List UInt8) : String := String.ofList (decodeFrom none bs)

end Throttle.Text.Utf8

/-!
Punycode, which writes a text with letters, digits and hyphens alone: first the ASCII characters as
they are, then for every other character, the smallest first, how far the reader has to go from the
one before it.
-/

namespace Throttle.Text.Punycode

def base : Nat := 36

/-- A digit: letters first, then the decimal digits. -/
def digit (n : Nat) : Char :=
  if n < 26 then Char.ofNat ('a'.toNat + n) else Char.ofNat ('0'.toNat + (n - 26))

/-- The digits after which a numeral may end, at a position and under a bias. -/
def threshold (bias position : Nat) : Nat :=
  if position ≤ bias + 1 then 1 else if bias + 26 ≤ position then 26 else position - bias

theorem one_le_threshold (bias position : Nat) : 1 ≤ threshold bias position := by
  unfold threshold; split
  · omega
  · split <;> omega

/-- A numeral of which each position tells whether it is the last one. -/
def numeral (bias position n : Nat) : List Char :=
  let t := threshold bias position
  if n < t then [digit n]
  else digit (t + (n - t) % (base - t)) :: numeral bias (position + base) ((n - t) / (base - t))
termination_by n
decreasing_by
  have h := one_le_threshold bias position
  have hd := Nat.div_le_self (n - threshold bias position) (base - threshold bias position)
  omega

/-- Adds a position for each digit that a distance will fill anyway. -/
def settle (distance position : Nat) : Nat :=
  if distance ≤ 455 then position + base * distance / (distance + 38)
  else settle (distance / (base - 1)) (position + base)
termination_by distance
decreasing_by unfold base; omega

/-- The bias after a distance, of which so many characters are written. -/
def adapt (first : Bool) (distance written : Nat) : Nat :=
  let distance := if first then distance / 700 else distance / 2
  settle (distance + distance / written) 0

/-- A writer: the way since the last character written, and what is written. -/
structure Writer where
  distance : Nat
  bias : Nat
  written : Nat
  first : Bool
  out : List Char

/-- Passes one character on the way to the characters `n`. -/
def pass (n : Nat) (w : Writer) (c : Char) : Writer :=
  if c.toNat < n then { w with distance := w.distance + 1 }
  else if c.toNat = n then
    { distance := 0
      bias := adapt w.first w.distance (w.written + 1)
      written := w.written + 1
      first := false
      out := w.out ++ numeral w.bias base w.distance }
  else w

/-- Writes every character `n`, where all below `seen` are written. -/
def write (cs : List Char) : Nat → Writer → List Nat → List Char
  | _, w, [] => w.out
  | seen, w, n :: ns =>
    let w := { w with distance := w.distance + (n - seen) * (w.written + 1) }
    let w := cs.foldl (pass n) w
    write cs (n + 1) { w with distance := w.distance + 1 } ns

def encode (cs : List Char) : List Char :=
  let plain := cs.filter (·.toNat < 0x80)
  let others := ((cs.map Char.toNat).filter (0x80 ≤ ·)).mergeSort.eraseReps
  let head := if plain.isEmpty then [] else plain ++ ['-']
  head ++ write cs 0x80 ⟨0, 72, plain.length, true, []⟩ others

end Throttle.Text.Punycode

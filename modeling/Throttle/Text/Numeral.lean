/-!
Decimal numerals. `unsigned?` reads what `decimal` writes, with an optional plus sign and any
number of leading zeros, and refuses a value at or above its bound.
-/

namespace Throttle.Text

/-- The decimal digits of a number, most significant first. -/
def decimal (n : Nat) : List Char :=
  Nat.toDigits 10 n

/-- The value of a run of decimal digits, which must not be empty. -/
def digits? (cs : List Char) : Option Nat :=
  if !cs.isEmpty && cs.all Char.isDigit then some (Nat.ofDigitChars 10 cs 0) else none

/-- Drops one leading plus sign. -/
def dropPlus : List Char → List Char
  | '+' :: cs => cs
  | cs => cs

/-- Reads an unsigned number below `bound`. -/
def unsigned? (bound : Nat) (cs : List Char) : Option Nat :=
  (digits? (dropPlus cs)).filter (· < bound)

/-- Reads a 32-bit unsigned number. -/
def word32? (cs : List Char) : Option UInt32 :=
  (unsigned? UInt32.size cs).map UInt32.ofNat

/-- The last `width` digits of a number, padded with zeros on the left. -/
def padded (width n : Nat) : List Char :=
  let ds := decimal n
  List.replicate (width - ds.length) '0' ++ ds

theorem decimal_ne_nil (n : Nat) : decimal n ≠ [] := by
  unfold decimal
  intro h
  have := @Nat.length_toDigits_pos 10 n
  simp [h] at this

theorem isDigit_of_mem_decimal {n : Nat} {c : Char} (h : c ∈ decimal n) : c.isDigit = true :=
  Nat.isDigit_of_mem_toDigits (by decide) (by decide) h

theorem ofDigitChars_decimal (n : Nat) : Nat.ofDigitChars 10 (decimal n) 0 = n :=
  Nat.ofDigitChars_toDigits (by decide) (by decide)

theorem digits?_decimal (n : Nat) : digits? (decimal n) = some n := by
  have h : (decimal n).all Char.isDigit = true :=
    List.all_eq_true.2 fun _ hc => isDigit_of_mem_decimal hc
  simp [digits?, h, decimal_ne_nil, ofDigitChars_decimal]

end Throttle.Text

/-!
# Natural numbers in decimal

A number is read from plain ASCII digits, with any zeros in front. A number that
does not fit 64 bits is not read at all.
-/
namespace BibTemplate.Decimal

/-- How many numbers fit 64 bits: two to the power 64. -/
def wordSize : Nat := 0x10000000000000000

/-- The number with one more digit at its end, if that fits 64 bits. -/
def push? (n : Nat) (digit : Char) : Option Nat :=
  let m := 10 * n + (digit.toNat - '0'.toNat)
  if m < wordSize then some m else none

/-- The number that a text of digits means, taken digit by digit for as long as it fits 64
bits; none for an empty text and for any other character. -/
def readWord? (s : List Char) : Option Nat :=
  if !s.isEmpty && s.all Char.isDigit then s.foldlM push? 0 else none

end BibTemplate.Decimal

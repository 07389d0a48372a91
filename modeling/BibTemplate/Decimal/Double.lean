/-!
# The anatomy of a double

A finite double other than zero is a sign and a magnitude `mantissa · 2 ^ exponent`.
The reals that round to it reach half way to its neighbours; at the bottom of a
binade the neighbour below is only half as far as the one above.
-/
namespace BibTemplate.Decimal

structure Magnitude where
  mantissa : Nat
  exponent : Int
  narrowBelow : Bool
  deriving DecidableEq, Repr

inductive Anatomy where
  | notANumber
  | infinite (negative : Bool)
  | zero (negative : Bool)
  | finite (negative : Bool) (magnitude : Magnitude)
  deriving DecidableEq, Repr

/-- The weight of the sign bit. -/
def signWeight : Nat := 0x8000000000000000

/-- The weight of the lowest bit of the exponent, which is also that of the first bit of
the mantissa of a normal double. -/
def exponentWeight : Nat := 0x10000000000000

/-- Reads sign, exponent and fraction off the 64 bits: the biased exponent 2047 is
kept for infinities and NaN, and 0 for zero and the subnormal doubles. -/
def anatomy (x : Float) : Anatomy :=
  let bits : Nat := x.toBits.toNat
  let negative := decide (signWeight ≤ bits)
  let biased : Nat := bits / exponentWeight % 2048
  let fraction : Nat := bits % exponentWeight
  if biased = 2047 then
    if fraction = 0 then .infinite negative else .notANumber
  else if biased = 0 then
    if fraction = 0 then .zero negative else .finite negative ⟨fraction, -1074, false⟩
  else
    .finite negative
      ⟨exponentWeight + fraction, (biased : Int) - 1075, fraction == 0 && 1 < biased⟩

/-- A magnitude and the ends of the interval of reals that round to it, as numerators
over one denominator. The ends belong to the interval when the mantissa is even. -/
structure Span where
  value : Nat
  lower : Nat
  upper : Nat
  denominator : Nat
  closed : Bool
  deriving DecidableEq, Repr

def Magnitude.span (m : Magnitude) : Span :=
  let unit := 1 <<< m.exponent.toNat
  { value := 4 * m.mantissa * unit
    lower := (4 * m.mantissa - if m.narrowBelow then 1 else 2) * unit
    upper := (4 * m.mantissa + 2) * unit
    denominator := 4 <<< (-m.exponent).toNat
    closed := m.mantissa % 2 == 0 }

end BibTemplate.Decimal

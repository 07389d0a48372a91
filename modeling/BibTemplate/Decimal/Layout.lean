import BibTemplate.Decimal.Shortest

/-!
# How a number is laid out

A layout says which of two equally near digit sequences to take, which numbers
are written without an exponent, and whether a whole number keeps a decimal
point. Writing puts the point among the digits or fills up with zeros; with an
exponent, one digit stands before the point and the exponent has its sign.
-/
namespace BibTemplate.Decimal

structure Layout where
  tie : Tie
  /-- The decimal exponents of the numbers that are written without an exponent. -/
  positional : Int → Bool
  /-- Whether whole numbers without an exponent end in `.0`. -/
  wholePoint : Bool

/-- The digits with the point in its place, and zeros where there are no digits. -/
def Digits.positional (d : Digits) (wholePoint : Bool) : List Char :=
  if d.point ≤ 0 then
    '0' :: '.' :: (List.replicate (-d.point).toNat '0' ++ d.digits)
  else
    let fill := List.replicate (d.point.toNat - d.digits.length) '0'
    let whole := d.digits.take d.point.toNat ++ fill
    match d.digits.drop d.point.toNat with
    | [] => if wholePoint then whole ++ ['.', '0'] else whole
    | fraction => whole ++ '.' :: fraction

/-- One digit, the others behind a point, and the exponent with its sign. -/
def Digits.scientific (d : Digits) : List Char :=
  let exponent := d.point - 1
  let sign := if exponent < 0 then '-' else '+'
  let fraction := d.digits.drop 1
  let significand := d.digits.take 1 ++ if fraction.isEmpty then [] else '.' :: fraction
  significand ++ 'e' :: sign :: Nat.toDigits 10 exponent.natAbs

def Digits.write (d : Digits) (l : Layout) : List Char :=
  if l.positional (d.point - 1) then d.positional l.wholePoint else d.scientific

/-- A minus sign before a negative number. -/
def signed (negative : Bool) (s : List Char) : List Char :=
  if negative then '-' :: s else s

/-- Writes any double; zero has the digit 0 before the point. -/
def Layout.write (l : Layout) (x : Float) : List Char :=
  match anatomy x with
  | .notANumber => "NaN".toList
  | .infinite negative => signed negative "inf".toList
  | .zero negative => signed negative (Digits.write ⟨['0'], 1⟩ l)
  | .finite negative m => signed negative ((m.shortest l.tie).write l)

end BibTemplate.Decimal

import BibTemplate.Decimal.Double

/-!
# The fewest digits that read back

Among the decimals that round to a given double, the chosen one has the fewest
digits and, of those, lies nearest to the double. On a grid of decimals with one
number of digits only the two neighbours of the double can be chosen, so the
first grid on which a neighbour rounds back decides. Seventeen digits always
suffice. Where two neighbours are equally near, the format says which one to take.
-/
namespace BibTemplate.Decimal

/-- Which of two equally near decimals to take. -/
inductive Tie where
  | upward
  | toEven
  deriving DecidableEq, Repr

/-- The number `0.d₁d₂… · 10 ^ point`, with no zero at the end of its digits. -/
structure Digits where
  digits : List Char
  point : Int
  deriving DecidableEq, Repr

/-- Ten to the power `n`. -/
def tenTo (n : Nat) : Nat := Nat.pow 10 n

/-- No double other than zero has its first digit behind the 400th decimal place, so
the digits of a double multiplied by `tenTo places` can be counted. -/
def places : Nat := 400

/-- Whether `d` units of `unit / tenTo places` round to the double. -/
def Span.contains (s : Span) (unit d : Nat) : Bool :=
  let x := d * unit * s.denominator
  let low := s.lower * tenTo places
  let high := s.upper * tenTo places
  if s.closed then low ≤ x && x ≤ high else low < x && x < high

/-- The nearest multiple of `unit / tenTo places` that rounds to the double. -/
def Span.nearest? (s : Span) (tie : Tie) (unit : Nat) : Option Nat :=
  let scaled := s.value * tenTo places
  let step := unit * s.denominator
  let below := scaled / step
  match s.contains unit below, s.contains unit (below + 1) with
  | false, false => none
  | true, false => some below
  | false, true => some (below + 1)
  | true, true =>
    match compare (2 * scaled) ((2 * below + 1) * step) with
    | .lt => some below
    | .gt => some (below + 1)
    | .eq =>
      match tie with
      | .upward => some (below + 1)
      | .toEven => some (below + below % 2)

/-- Drops the zeros at the end of a digit list. -/
def dropEndZeros (ds : List Char) : List Char :=
  (ds.reverse.dropWhile (· == '0')).reverse

/-- The digits of `d · 10 ^ power`. -/
def Digits.ofNat (d : Nat) (power : Int) : Digits :=
  let ds := Nat.toDigits 10 d
  ⟨dropEndZeros ds, (ds.length : Int) + power⟩

/-- The fewest digits that round to `m`, and of those the nearest ones. -/
def Magnitude.shortest (m : Magnitude) (tie : Tie) : Digits :=
  let s := m.span
  let whole := s.value * tenTo places / s.denominator
  let length := (Nat.toDigits 10 whole).length
  let candidate (cut : Nat) : Option Digits :=
    (s.nearest? tie (tenTo cut)).map fun d => .ofNat d ((cut : Int) - places)
  let found := (List.range 17).findSome? fun n => candidate (length - (n + 1))
  found.getD (.ofNat whole (-(places : Int)))

end BibTemplate.Decimal

import BibTemplate.Decimal.Natural
import BibTemplate.Json.Basic
import BibTemplate.Value.Basic

/-!
# Numbers

A number is read one character at a time: a minus sign, a whole part without
needless zeros, a fraction, an exponent. A number without fraction and exponent
that fits 64 bits with a sign is an integer, except that minus zero is a double,
and every other number is a double. Its leading digits, as many as fit 64 bits,
are rounded to a double, which is then multiplied or divided by a power of ten;
a number that ends up infinite is out of range.
-/
namespace BibTemplate.Json

/-- Where the reader is inside a number. -/
inductive Numeral.Stage where
  | sign
  | zero
  | whole
  | point
  | fraction
  | mark
  | markSign
  | exponent
  deriving DecidableEq, Repr

/-- A number being read; its digits so far are kept last digit first. -/
structure Numeral where
  stage : Numeral.Stage
  negative : Bool
  whole : List Char
  fraction : List Char
  negativeExponent : Bool
  exponent : List Char
  deriving DecidableEq, Repr

/-- The leading digits of a number, and the power of ten that they are multiplied by. -/
structure Scaled where
  significand : Nat
  exponent : Int
  deriving DecidableEq, Repr

/-- Ten to the power `n`, rounded to a double. -/
def powerOfTen (n : Nat) : Float :=
  Float.ofScientific 1 false n

namespace Scaled

/-- The whole part: once a digit does not fit, it and all after it only count. -/
def ofWhole : Nat → List Char → Scaled
  | m, [] => ⟨m, 0⟩
  | m, c :: cs =>
    let n := 10 * m + (c.toNat - 48)
    if n < Decimal.wordSize then ofWhole n cs else ⟨m, (cs.length + 1 : Nat)⟩

/-- The fraction: once a digit does not fit, it and all after it are dropped. -/
def addFraction : Scaled → List Char → Scaled
  | s, [] => s
  | s, c :: cs =>
    let n := 10 * s.significand + (c.toNat - 48)
    if n < Decimal.wordSize then addFraction ⟨n, s.exponent - 1⟩ cs else s

/-- The double, none if it is infinite. Below `10 ^ -308` the power of ten is divided out
in two steps, and below `10 ^ -616` nothing is left. -/
def toFloat? (s : Scaled) : Option Float :=
  let m := s.significand.toUInt64.toFloat
  if s.exponent > 308 then
    if s.significand = 0 then some 0 else none
  else if s.exponent ≥ 0 then
    let x := m * powerOfTen s.exponent.toNat
    if x.isInf then none else some x
  else if s.exponent ≥ -308 then
    some (m / powerOfTen (-s.exponent).toNat)
  else if s.exponent ≥ -616 then
    some (m / powerOfTen 308 / powerOfTen (-s.exponent - 308).toNat)
  else some 0

end Scaled

namespace Numeral

/-- A number that begins with `c`. -/
def start? (c : Char) : Option Numeral :=
  if c = '-' then some ⟨.sign, true, [], [], false, []⟩
  else if c = '0' then some ⟨.zero, false, ['0'], [], false, []⟩
  else if c.isDigit then some ⟨.whole, false, [c], [], false, []⟩
  else none

/-- After the whole part: a point, an exponent, or the end of the number. -/
def afterWhole (n : Numeral) (c : Char) : Progress Numeral Numeral :=
  if c = '.' then .more { n with stage := .point }
  else if c = 'e' ∨ c = 'E' then .more { n with stage := .mark }
  else .past n

/-- Reads one more character; none if it does not fit. -/
def step (n : Numeral) (c : Char) : Option (Progress Numeral Numeral) :=
  match n.stage with
  | .sign =>
    if c = '0' then some (.more { n with stage := .zero, whole := [c] })
    else if c.isDigit then some (.more { n with stage := .whole, whole := [c] })
    else none
  | .zero => if c.isDigit then none else some (n.afterWhole c)
  | .whole =>
    if c.isDigit then some (.more { n with whole := c :: n.whole }) else some (n.afterWhole c)
  | .point =>
    if c.isDigit then some (.more { n with stage := .fraction, fraction := [c] }) else none
  | .fraction =>
    if c.isDigit then some (.more { n with fraction := c :: n.fraction })
    else if c = 'e' ∨ c = 'E' then some (.more { n with stage := .mark })
    else some (.past n)
  | .mark =>
    if c = '+' then some (.more { n with stage := .markSign })
    else if c = '-' then some (.more { n with stage := .markSign, negativeExponent := true })
    else if c.isDigit then some (.more { n with stage := .exponent, exponent := [c] })
    else none
  | .markSign =>
    if c.isDigit then some (.more { n with stage := .exponent, exponent := [c] }) else none
  | .exponent =>
    if c.isDigit then some (.more { n with exponent := c :: n.exponent }) else some (.past n)

/-- Whether the number may end here. -/
def complete (n : Numeral) : Bool :=
  match n.stage with
  | .zero | .whole | .fraction | .exponent => true
  | .sign | .point | .mark | .markSign => false

/-- The leading digits with their power of ten. -/
def scaled (n : Numeral) : Scaled :=
  let s := (Scaled.ofWhole 0 n.whole.reverse).addFraction n.fraction.reverse
  let e : Nat := Nat.ofDigitChars 10 n.exponent.reverse 0
  ⟨s.significand, if n.negativeExponent then s.exponent - e else s.exponent + e⟩

/-- How many of the signed 64-bit integers are negative: two to the power 63. -/
def negativeSize : Nat := 0x8000000000000000

/-- The number as a signed 64-bit integer, if it is written as one and fits. -/
def integer? (n : Numeral) : Option Int64 :=
  if n.fraction.isEmpty && n.exponent.isEmpty then
    let m := Nat.ofDigitChars 10 n.whole.reverse 0
    if n.negative then
      if 0 < m ∧ m ≤ negativeSize then some (.ofInt (-(m : Int))) else none
    else if m < negativeSize then some (.ofNat m) else none
  else none

/-- The value of a complete number, none if it is out of range. -/
def value? (n : Numeral) : Option Value :=
  match n.integer? with
  | some i => some (.integer i)
  | none => n.scaled.toFloat?.map fun x => .float (if n.negative then -x else x)

end Numeral

end BibTemplate.Json

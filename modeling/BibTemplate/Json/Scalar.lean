import BibTemplate.Json.Quoted
import BibTemplate.Json.Numeral

/-!
# Scalars

The values that hold no others: the three literals, numbers and strings.
-/
namespace BibTemplate.Json

/-- A scalar being read: what is missing of a literal, a number, or a string. -/
inductive Scalar where
  | literal (rest : List Char) (value : Value)
  | numeral (n : Numeral)
  | quoted (q : Quoted)

namespace Scalar

/-- The scalar that begins with `c`. -/
def start? (c : Char) : Option Scalar :=
  match c with
  | 'n' => some (.literal "ull".toList .null)
  | 't' => some (.literal "rue".toList (.bool true))
  | 'f' => some (.literal "alse".toList (.bool false))
  | '"' => some (.quoted .start)
  | c => (Numeral.start? c).map .numeral

/-- The value of a number; one that is out of range only matters where it is kept. -/
def numeralValue? (rules : Rules) (n : Numeral) : Option Value :=
  if rules.boundedNumbers then n.value? else some (n.value?.getD .null)

/-- Reads one more character; none if it does not fit. -/
def step (rules : Rules) (s : Scalar) (c : Char) : Option (Progress Scalar Value) :=
  match s with
  | .literal [] _ => none
  | .literal [d] v => if c = d then some (.done v) else none
  | .literal (d :: ds) v => if c = d then some (.more (.literal ds v)) else none
  | .quoted q =>
    (q.step rules c).map fun
      | .more q => .more (.quoted q)
      | .done s => .done (.string s)
      | .past s => .past (.string s)
  | .numeral n =>
    match n.step c with
    | none => none
    | some (.more n) => some (.more (.numeral n))
    | some (.done n) => (numeralValue? rules n).map .done
    | some (.past n) => (numeralValue? rules n).map .past

/-- What the scalar is worth when the text ends here. -/
def finish (rules : Rules) : Scalar → Except Fault Value
  | .numeral n =>
    if n.complete then
      match numeralValue? rules n with
      | some v => .ok v
      | none => .error .malformed
    else .error rules.cutNumber
  | .literal _ _ | .quoted _ => .error .ended

end Scalar

end BibTemplate.Json

/-!
# Values

A template is rendered against a tree of values. Integers and floating-point
numbers are apart, so that a year prints without a fraction. The members of an
object keep their order; a key may occur again, and looking it up finds its
first occurrence.
-/
namespace BibTemplate

inductive Value where
  | null
  | bool (b : Bool)
  | integer (n : Int64)
  | float (x : Float)
  | string (s : String)
  | list (items : List Value)
  | object (members : List (String × Value))
  deriving Inhabited

namespace Value

/-- The members of an object, in order. -/
abbrev Members := List (String × Value)

/-- The value of the first member with a key. -/
def Members.get? (ms : Members) (key : String) : Option Value :=
  (ms.find? fun m => m.1 = key).map (·.2)

/-- Sets a key: its first member takes the new value in its old place, and a key that
is new comes last. -/
def Members.set : Members → String → Value → Members
  | [], key, v => [(key, v)]
  | m :: ms, key, v => if m.1 = key then (key, v) :: ms else m :: Members.set ms key v

/-- The member of an object; every other value has none. -/
def get? : Value → String → Option Value
  | object ms, key => Members.get? ms key
  | _, _ => none

/-- The element of a list, counted from zero; every other value has none. -/
def index? : Value → Nat → Option Value
  | list items, i => items[i]?
  | _, _ => none

/-- Whether a section over the value is rendered: all but null, false, zero, NaN, the
empty text and the empty list. An object counts, with members or without. -/
def truthy : Value → Bool
  | null => false
  | bool b => b
  | integer n => n != 0
  | float x => x != 0 && !x.isNaN
  | string s => !s.isEmpty
  | list items => !items.isEmpty
  | object _ => true

@[simp] theorem get?_object (ms : Members) (key : String) :
    (object ms).get? key = Members.get? ms key := rfl

@[simp] theorem index?_list (items : List Value) (i : Nat) :
    (list items).index? i = items[i]? := rfl

theorem Members.get?_set_self (ms : Members) (key : String) (v : Value) :
    (ms.set key v).get? key = some v := by
  induction ms with
  | nil => simp [set, get?]
  | cons m ms ih =>
    by_cases h : m.1 = key
    · simp [set, get?, h]
    · simpa [set, get?, h] using ih

theorem Members.get?_set_of_ne (ms : Members) {key other : String} (v : Value)
    (h : other ≠ key) : (ms.set key v).get? other = ms.get? other := by
  induction ms with
  | nil => simp [set, get?, Ne.symm h]
  | cons m ms ih =>
    by_cases hm : m.1 = key
    · simp [set, get?, hm, Ne.symm h]
    · by_cases ho : m.1 = other
      · simp [set, get?, ho, h]
      · simpa [set, get?, hm, ho] using ih

end Value

end BibTemplate

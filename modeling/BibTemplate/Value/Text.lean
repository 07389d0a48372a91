import BibTemplate.Json.Printer

/-!
# The text of a value

The text that a template shows for a value: nothing for null, digits for numbers,
the texts of the elements with commas between them for a list, and JSON for an
object.
-/
namespace BibTemplate

/-- No exponent at any size, no point in a whole number, and of two equally near
numbers the larger. -/
def Decimal.textLayout : Decimal.Layout where
  tie := .upward
  positional _ := true
  wholePoint := false

namespace Value

/-- The text of a double; both zeros are `0`. -/
def floatText (x : Float) : String :=
  if x == 0 then "0" else .ofList (Decimal.textLayout.write x)

mutual

def text : Value → String
  | .null => ""
  | .bool b => if b then "true" else "false"
  | .integer n => .ofList (Json.writeInteger n)
  | .float x => floatText x
  | .string s => s
  | .list items => ",".intercalate (texts items)
  | .object ms => Json.print (.object ms)
termination_by structural v => v

def texts : List Value → List String
  | [] => []
  | v :: vs => v.text :: texts vs
termination_by structural vs => vs

end

theorem texts_eq_map (items : List Value) : texts items = items.map text := by
  induction items with
  | nil => rfl
  | cons v vs ih => simp [texts, ih]

end Value

end BibTemplate

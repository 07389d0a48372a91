import BibTemplate.Decimal.Layout
import BibTemplate.Json.Quoted
import BibTemplate.Value.Document

/-!
# Printing a document

A document is printed without white space, its members in their order. Numbers
have the fewest digits that read back.
-/
namespace BibTemplate.Json

/-- Of two equally near numbers the one with an even last digit; no exponent from
`10 ^ -5` to below `10 ^ 16`; whole numbers end in `.0`. -/
def numberLayout : Decimal.Layout where
  tie := .toEven
  positional e := -5 ≤ e && e ≤ 15
  wholePoint := true

def writeInteger (n : Int64) : List Char :=
  Decimal.signed (n < 0) (Nat.toDigits 10 n.toInt.natAbs)

mutual

/-- The text of a document; a number that is not finite is null. -/
def write : Value → List Char
  | .null => "null".toList
  | .bool b => if b then "true".toList else "false".toList
  | .integer n => writeInteger n
  | .float x => if x.isFinite then numberLayout.write x else "null".toList
  | .string s => quote s.toList
  | .list items => '[' :: ([','].intercalate (writeItems items) ++ [']'])
  | .object ms => '\x7b' :: ([','].intercalate (writeMembers ms) ++ ['\x7d'])
termination_by structural v => v

def writeItems : List Value → List (List Char)
  | [] => []
  | v :: vs => write v :: writeItems vs
termination_by structural vs => vs

def writeMembers : List (String × Value) → List (List Char)
  | [] => []
  | (key, v) :: ms => (quote key.toList ++ ':' :: write v) :: writeMembers ms
termination_by structural ms => ms

end

theorem writeItems_eq_map (items : List Value) : writeItems items = items.map write := by
  induction items with
  | nil => rfl
  | cons v vs ih => simp [writeItems, ih]

theorem writeMembers_eq_map (ms : List (String × Value)) :
    writeMembers ms = ms.map fun m => quote m.1.toList ++ ':' :: write m.2 := by
  induction ms with
  | nil => rfl
  | cons m ms ih => simp [writeMembers, ih]

/-- The compact JSON text of any value, through its document. -/
def print (v : Value) : String :=
  .ofList (write v.document)

end BibTemplate.Json

import BibTemplate.Decimal.Natural
import BibTemplate.Filter.Words

/-!
# Filters

A filter changes the text of a value before it is shown. Upper and lower case are
those of the ASCII letters; every other character stays as it is. A filter is
written by its name, and `abbrN` keeps the first `N` characters.
-/
namespace BibTemplate

inductive Filter where
  | uppercase
  | lowercase
  | capitalize
  | titleword
  | abbr (count : Nat)
  deriving DecidableEq, Repr

namespace Filter

/-- The filters that have one fixed name, in the order in which they are listed. -/
def named : List (String × Filter) :=
  [("uppercase", uppercase), ("lowercase", lowercase), ("capitalize", capitalize),
    ("titleword", titleword)]

/-- The filter `abbrN` for a count that is not zero and fits 64 bits. -/
def abbr? (name : List Char) : Option Filter :=
  match name with
  | 'a' :: 'b' :: 'b' :: 'r' :: digits =>
    ((Decimal.readWord? digits).filter (1 ≤ ·)).map abbr
  | _ => none

/-- The filter with a name. -/
def ofName? (name : String) : Option Filter :=
  (named.lookup name).or (abbr? name.toList)

/-- The names for a user to choose from. -/
def names : List String :=
  named.map (·.1) ++ ["abbrN"]

/-- The name that a filter is written by. -/
def name : Filter → String
  | uppercase => "uppercase"
  | lowercase => "lowercase"
  | capitalize => "capitalize"
  | titleword => "titleword"
  | abbr count => .ofList ("abbr".toList ++ Nat.toDigits 10 count)

/-- What a filter makes of a text. -/
def run : Filter → List Char → List Char
  | uppercase, s => s.map Char.toUpper
  | lowercase, s => s.map Char.toLower
  | capitalize, s => capitalizeFrom true s
  | titleword, s => titleWord s
  | abbr count, s => s.take count

def apply (f : Filter) (s : String) : String :=
  .ofList (f.run s.toList)

/-- Applies filters from left to right. -/
def applyAll (fs : List Filter) (s : String) : String :=
  fs.foldl (fun s f => f.apply s) s

@[simp] theorem toList_apply (f : Filter) (s : String) : (f.apply s).toList = f.run s.toList := by
  simp [apply]

@[simp] theorem applyAll_nil (s : String) : applyAll [] s = s := rfl

@[simp] theorem applyAll_cons (f : Filter) (fs : List Filter) (s : String) :
    applyAll (f :: fs) s = applyAll fs (f.apply s) := rfl

end Filter

end BibTemplate

/-!
# Places in a text

A place is a line and a column, both counted from one. A column counts
characters, whatever their width in bytes, and only a line feed ends a line.
-/
namespace BibTemplate.Text

structure Position where
  line : Nat
  column : Nat
  deriving DecidableEq, Repr, Inhabited

/-- The first character of every text. -/
def Position.start : Position := ⟨1, 1⟩

/-- The place after one more character. -/
def Position.next (p : Position) (c : Char) : Position :=
  if c = '\n' then ⟨p.line + 1, 1⟩ else ⟨p.line, p.column + 1⟩

/-- The place after the text `s` that starts at `p`. -/
def Position.advance (p : Position) (s : List Char) : Position :=
  s.foldl next p

@[simp] theorem Position.advance_nil (p : Position) : p.advance [] = p := rfl

@[simp] theorem Position.advance_cons (p : Position) (c : Char) (s : List Char) :
    p.advance (c :: s) = (p.next c).advance s := rfl

theorem Position.advance_append (p : Position) (s t : List Char) :
    p.advance (s ++ t) = (p.advance s).advance t :=
  List.foldl_append

end BibTemplate.Text

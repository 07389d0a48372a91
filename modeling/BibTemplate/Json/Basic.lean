/-!
# Reading JSON

A text is read from left to right, one character at a time, and the first problem
decides. Either the text ends where more was needed, or a character does not fit,
or the text is well-formed but not of the shape that was asked for. A value that
is kept is read more closely than one that is only passed over.
-/
namespace BibTemplate.Json

inductive Fault where
  | ended
  | malformed
  | mistyped
  deriving DecidableEq, Repr

/-- What one more character does to a part of a text that is being read: the part goes
on, or it is complete with this character, or it was complete before it. -/
inductive Progress (σ α : Type) where
  | more (state : σ)
  | done (result : α)
  | past (result : α)
  deriving DecidableEq, Repr

/-- White space between the tokens: space, tab, line feed and carriage return. -/
def isSpace (c : Char) : Bool :=
  c == ' ' || c == '\t' || c == '\n' || c == '\r'

/-- How closely a value is read. -/
structure Rules where
  /-- How many arrays and objects may be open at once. -/
  depth : Option Nat
  /-- Whether surrogate escapes must come in pairs. -/
  pairedSurrogates : Bool
  /-- Whether a number beyond the doubles is refused. -/
  boundedNumbers : Bool
  /-- What is wrong with a number that the end of the text cuts short. -/
  cutNumber : Fault
  deriving DecidableEq, Repr

/-- For a value that is kept. -/
def Rules.keeping : Rules := ⟨some 127, true, true, .ended⟩

/-- For a value that is only passed over. -/
def Rules.skipping : Rules := ⟨none, false, false, .malformed⟩

end BibTemplate.Json

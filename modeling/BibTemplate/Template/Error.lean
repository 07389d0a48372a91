import BibTemplate.Text.Position

/-!
# Defects of a template

A template text is refused for the first defect in it, at the tag where it shows;
a section that is never closed shows at its opening tag.
-/
namespace BibTemplate

/-- How many sections may be open at once. -/
def maxDepth : Nat := 256

/-- What is wrong with a tag. -/
inductive Defect where
  | mismatchedClose (opened closed : String)
  | unexpectedClose (closed : String)
  | unterminatedSection (opened : String)
  | unknownFilter (name : String)
  | emptyTag
  | filterOnSection (path : String)
  | nestingTooDeep
  deriving DecidableEq, Repr

/-- A defect and the place of the two braces that open its tag. -/
structure SyntaxError where
  position : Text.Position
  defect : Defect
  deriving DecidableEq, Repr

namespace Defect

def describe : Defect → String
  | mismatchedClose opened closed =>
    "section `" ++ opened ++ "` is closed by `\x7b\x7b/" ++ closed ++ "\x7d\x7d`"
  | unexpectedClose closed =>
    "unexpected close tag `\x7b\x7b/" ++ closed ++ "\x7d\x7d` with no open section"
  | unterminatedSection opened => "unterminated section `" ++ opened ++ "`"
  | unknownFilter name => "unknown filter `" ++ name ++ "`"
  | emptyTag => "empty tag"
  | filterOnSection path => "filters are not allowed on section tag `" ++ path ++ "`"
  | nestingTooDeep => "sections nested deeper than " ++ maxDepth.repr ++ " levels"

end Defect

/-- The whole message, with line and column. -/
def SyntaxError.message (e : SyntaxError) : String :=
  "template syntax error at line " ++ e.position.line.repr ++ ", column " ++
    e.position.column.repr ++ ": " ++ e.defect.describe

end BibTemplate

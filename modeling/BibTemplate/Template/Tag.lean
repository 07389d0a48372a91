import BibTemplate.Filter.Basic
import BibTemplate.Template.Error

/-!
# Tags

White space around the body of a tag and around its parts does not count. A body
that begins with `#` or `^` opens a section, one that begins with `/` closes one,
and any other is a placeholder: a path, and filters after bars. The path of a
section is not empty and has no bar.
-/
namespace BibTemplate

inductive Tag where
  | placeholder (path : String) (filters : List Filter)
  | opening (negated : Bool) (path : String)
  | closing (path : String)
  deriving DecidableEq, Repr

namespace Tag

/-- The path of a section tag, from the text after its first character. -/
def sectionPath (s : List Char) : Except Defect String :=
  let path := Text.trim s
  if path.isEmpty then .error .emptyTag
  else if path.contains '|' then .error (.filterOnSection (.ofList path))
  else .ok (.ofList path)

def filter (name : List Char) : Except Defect Filter :=
  match Filter.ofName? (.ofList name) with
  | some f => .ok f
  | none => .error (.unknownFilter (.ofList name))

/-- A placeholder from its parts: the path must not be empty, and the first unknown
filter is the defect. -/
def ofParts : List (List Char) → Except Defect Tag
  | [] => .error .emptyTag
  | path :: filters =>
    if path.isEmpty then .error .emptyTag
    else (filters.mapM filter).map (placeholder (.ofList path))

/-- Reads the body of a tag. -/
def ofBody (body : List Char) : Except Defect Tag :=
  match Text.trim body with
  | '#' :: rest => (sectionPath rest).map (opening false)
  | '^' :: rest => (sectionPath rest).map (opening true)
  | '/' :: rest => (sectionPath rest).map closing
  | tag => ofParts ((tag.splitOn '|').map Text.trim)

end Tag

end BibTemplate

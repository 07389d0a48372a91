import BibTemplate.Filter.Basic

/-!
# The tree of a template

A template is a list of nodes: text that is shown as it is, placeholders for the
text of a value, and sections, which show their body depending on a value.
-/
namespace BibTemplate

inductive Node where
  | literal (text : String)
  /-- The text of the value at a path, put through filters from left to right. -/
  | placeholder (path : String) (filters : List Filter)
  /-- A section. If it is negated its body is shown just when the value is falsy. -/
  | block (path : String) (negated : Bool) (body : List Node)
  deriving Inhabited, Repr

structure Template where
  nodes : List Node
  deriving Inhabited, Repr

end BibTemplate

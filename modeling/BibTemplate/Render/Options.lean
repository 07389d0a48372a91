/-!
# Render options

What happens to the text that a template gives, and what it is meant for.
-/
namespace BibTemplate

structure RenderOptions where
  /-- Only the characters of a citekey are kept. -/
  sanitizeForCitekey : Bool := false
  /-- The text is meant to be a JSON array. This changes nothing in the text. -/
  yamlArray : Bool := false
  deriving DecidableEq, Repr, Inhabited

namespace RenderOptions

/-- For a citekey. -/
def forCitekey : RenderOptions := { sanitizeForCitekey := true }

/-- For a structured field whose template gives a JSON array. -/
def forArrayField : RenderOptions := { yamlArray := true }

end RenderOptions

/-- The characters of a citekey: ASCII letters and digits, underscore and hyphen. -/
def isCitekeyChar (c : Char) : Bool :=
  c.isAlphanum || c == '_' || c == '-'

/-- The text in its final form. -/
def RenderOptions.finish (o : RenderOptions) (s : String) : String :=
  if o.sanitizeForCitekey then .ofList (s.toList.filter isCitekeyChar) else s

end BibTemplate

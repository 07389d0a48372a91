import BibTemplate.Template.Node

/-!
# Printing a template

Literal text is printed as it is, and a tag with one blank on either side of each
of its parts.
-/
namespace BibTemplate

/-- A tag with the given body between its braces. -/
def braced (body : List Char) : List Char :=
  '{' :: '{' :: (body ++ ['}', '}'])

/-- A path and the filters after it. -/
def printPlaceholder (path : String) (filters : List Filter) : List Char :=
  braced (' ' :: (path.toList ++ (filters.flatMap fun f => " | ".toList ++ f.name.toList) ++ [' ']))

/-- A tag that opens or closes a section. -/
def printSectionTag (mark : Char) (path : String) : List Char :=
  braced (mark :: ' ' :: (path.toList ++ [' ']))

mutual

def Node.print : Node → List Char
  | .literal text => text.toList
  | .placeholder path filters => printPlaceholder path filters
  | .block path negated body =>
    printSectionTag (if negated then '^' else '#') path ++
      (Node.printAll body ++ printSectionTag '/' path)
termination_by structural n => n

def Node.printAll : List Node → List Char
  | [] => []
  | n :: ns => n.print ++ Node.printAll ns
termination_by structural ns => ns

end

/-- A text that parses to the template, if the template can be written at all. -/
def Template.print (t : Template) : String :=
  .ofList (Node.printAll t.nodes)

end BibTemplate

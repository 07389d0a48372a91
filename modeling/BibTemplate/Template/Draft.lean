import BibTemplate.Template.Node
import BibTemplate.Template.Segments
import BibTemplate.Template.Tag

/-!
# Putting a template together

A draft is what has been read of a template: where the reading stands, the nodes
of the innermost open section, and the open sections themselves, each with the
nodes before it at its own level. Closing a section makes a node of it and goes on
at the level outside. At the end no section may be open.
-/
namespace BibTemplate

/-- A section that has been opened and not closed; the nodes before it are kept last
node first. -/
structure OpenSection where
  path : String
  negated : Bool
  position : Text.Position
  before : List Node

/-- The part of a template that has been read. The innermost open section comes first,
and the nodes inside it are kept last node first. -/
structure Draft where
  position : Text.Position
  opened : List OpenSection
  nodes : List Node

namespace Draft

def empty : Draft := ⟨.start, [], []⟩

def push (d : Draft) (n : Node) : Draft := { d with nodes := n :: d.nodes }

/-- Adds a text; an empty one makes no node. -/
def addText (d : Draft) (t : List Char) : Draft :=
  let d := if t.isEmpty then d else d.push (.literal (.ofList t))
  { d with position := d.position.advance t }

/-- Adds a tag, whose opening braces stand at the position of the draft. -/
def addTag (d : Draft) : Tag → Except Defect Draft
  | .placeholder path filters => .ok (d.push (.placeholder path filters))
  | .opening negated path =>
    if d.opened.length ≥ maxDepth then .error .nestingTooDeep
    else .ok { d with opened := ⟨path, negated, d.position, d.nodes⟩ :: d.opened, nodes := [] }
  | .closing path =>
    match d.opened with
    | [] => .error (.unexpectedClose path)
    | s :: outer =>
      if s.path = path then
        .ok { d with opened := outer, nodes := .block s.path s.negated d.nodes.reverse :: s.before }
      else .error (.mismatchedClose s.path path)

/-- Reads a tag from its body and adds it. -/
def addBody (d : Draft) (body : List Char) : Except SyntaxError Draft :=
  match (Tag.ofBody body).bind d.addTag with
  | .error defect => .error ⟨d.position, defect⟩
  | .ok e => .ok { e with position := d.position.advance ('{' :: '{' :: (body ++ ['}', '}'])) }

/-- Adds a text and the tag after it. -/
def addSegment (d : Draft) (segment : List Char × List Char) : Except SyntaxError Draft :=
  (d.addText segment.1).addBody segment.2

/-- The template, if no section is left open. -/
def finish (d : Draft) : Except SyntaxError Template :=
  match d.opened with
  | [] => .ok ⟨d.nodes.reverse⟩
  | s :: _ => .error ⟨s.position, .unterminatedSection s.path⟩

/-- Reads the segments of a whole template. -/
def ofSegments (s : Segments) : Except SyntaxError Draft :=
  (s.tags.foldlM addSegment empty).map fun d => d.addText s.tail

end Draft

/-- Reads a template text. -/
def Template.parse (source : String) : Except SyntaxError Template :=
  (Draft.ofSegments (.ofChars source.toList)).bind Draft.finish

/-- A text without a tag is read as itself. -/
theorem Template.parse_of_no_tag {source : String} (h : FirstTag.of? source.toList = none)
    (hne : source ≠ "") : parse source = .ok ⟨[.literal source]⟩ := by
  have hnonempty : source.toList.isEmpty = false := by simpa using hne
  rw [parse, Segments.ofChars_of_none h, Draft.ofSegments, List.foldlM_nil]
  simp [Except.map, Except.bind, pure, Except.pure, Draft.addText, hnonempty, Draft.push,
    Draft.empty, Draft.finish]

end BibTemplate

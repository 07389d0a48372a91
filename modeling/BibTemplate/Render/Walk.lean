import BibTemplate.Scopes
import BibTemplate.Template.Node
import BibTemplate.Value.Text

/-!
# Walking a template

A walk goes through the nodes of a template once, with one stack of scopes and one
output text. A section over a list goes into each element in turn and a section
over an object goes into the object; each leaves again what it has entered. Any
other truthy value shows the body once in the scopes as they are.
-/
namespace BibTemplate

structure Walk where
  scopes : Scopes
  output : String

namespace Walk

def emit (w : Walk) (s : String) : Walk := { w with output := w.output ++ s }

def enter (w : Walk) (v : Value) : Walk := { w with scopes := w.scopes.push v }

def enterItem (w : Walk) (v : Value) (p : LoopPosition) : Walk :=
  { w with scopes := w.scopes.pushItem v p }

def leave (w : Walk) : Walk := { w with scopes := w.scopes.pop }

end Walk

/-- The text of the value at a path; nothing if there is none. -/
def Scopes.textAt (s : Scopes) (path : String) : String :=
  ((s.resolve? path).map Value.text).getD ""

/-- Whether the value at a path is truthy; it is not if there is none. -/
def Scopes.truthyAt (s : Scopes) (path : String) : Bool :=
  ((s.resolve? path).map Value.truthy).getD false

mutual

def Node.walk : Node → Walk → Walk
  | .literal text, w => w.emit text
  | .placeholder path filters, w => w.emit (Filter.applyAll filters (w.scopes.textAt path))
  | .block path false body, w =>
    match w.scopes.resolve? path with
    | none => w
    | some v =>
      if v.truthy then
        match v with
        | .list items =>
          items.zipIdx.foldl
            (fun w item =>
              (Node.walkAll body (w.enterItem item.1 ⟨item.2, items.length⟩)).leave) w
        | .object _ => (Node.walkAll body (w.enter v)).leave
        | _ => Node.walkAll body w
      else w
  | .block path true body, w =>
    if w.scopes.truthyAt path then w else Node.walkAll body w
termination_by structural n => n

def Node.walkAll : List Node → Walk → Walk
  | [], w => w
  | n :: ns, w => Node.walkAll ns (n.walk w)
termination_by structural ns => ns

end

end BibTemplate

import BibTemplate.Render.Walk

/-!
# What a template means

The text of a node in given scopes, without stack and output: the text of a section
is made of the texts of its body, in the scopes that the section adds to.
-/
namespace BibTemplate

mutual

def Node.eval : Node → Scopes → String
  | .literal text, _ => text
  | .placeholder path filters, s => Filter.applyAll filters (s.textAt path)
  | .block path false body, s =>
    match s.resolve? path with
    | none => ""
    | some v =>
      if v.truthy then
        match v with
        | .list items =>
          .join (items.zipIdx.map fun item =>
            Node.evalAll body (s.pushItem item.1 ⟨item.2, items.length⟩))
        | .object _ => Node.evalAll body (s.push v)
        | _ => Node.evalAll body s
      else ""
  | .block path true body, s => if s.truthyAt path then "" else Node.evalAll body s
termination_by structural n => n

def Node.evalAll : List Node → Scopes → String
  | [], _ => ""
  | n :: ns, s => n.eval s ++ Node.evalAll ns s
termination_by structural ns => ns

end

end BibTemplate

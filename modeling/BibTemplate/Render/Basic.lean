import BibTemplate.Json.Reader
import BibTemplate.Render.Options
import BibTemplate.Render.Walk
import BibTemplate.Template.Draft

/-!
# Rendering

A template that has been read can always be rendered: what is missing shows as
nothing. What can fail comes before, and the template is read before the context,
so that a defect of the template is reported first.
-/
namespace BibTemplate

def Template.render (t : Template) (context : Value) (options : RenderOptions) : String :=
  options.finish (Node.walkAll t.nodes ⟨.ofRoot context, ""⟩).output

/-- Reads a template and renders it. -/
def render (source : String) (context : Value) (options : RenderOptions) :
    Except SyntaxError String :=
  (Template.parse source).map (·.render context options)

/-- Why nothing could be rendered. -/
inductive RenderError where
  | template (error : SyntaxError)
  | context (fault : Json.Fault)
  deriving DecidableEq, Repr

/-- Reads a template and a context and renders the one against the other. -/
def renderJson (source context : String) (options : RenderOptions) : Except RenderError String :=
  match Template.parse source with
  | .error e => .error (.template e)
  | .ok t =>
    match Json.read context with
    | .error fault => .error (.context fault)
    | .ok v => .ok (t.render v options)

/-- Looks for defects without rendering. -/
def validate (source : String) : Except SyntaxError Unit :=
  (Template.parse source).map fun _ => ()

/-- Whether a template looks as if its text were a JSON array. -/
def isArrayTemplate (source : String) : Bool :=
  let s := Text.trim source.toList
  s.head? == some '[' && s.getLast? == some ']'

end BibTemplate

import BibTemplate.Cache.Basic

/-!
# Live preview

A preview renders one template again and again while it is being typed, each time
with a context in JSON. All its work goes through one cache that keeps the 64 most
recently used templates.
-/
namespace BibTemplate

structure Preview where
  cache : Cache

namespace Preview

def start : Preview := ⟨.bounded 64⟩

/-- Renders a template against a context; a defect of the template is reported before one
of the context. -/
def render (p : Preview) (source context : String) (options : RenderOptions) :
    Except RenderError String × Preview :=
  match p.cache.fetch source with
  | (.error e, cache) => (.error (.template e), ⟨cache⟩)
  | (.ok held, cache) =>
    match Json.read context with
    | .error fault => (.error (.context fault), ⟨cache⟩)
    | .ok v => (.ok (held.template.render v options), ⟨cache⟩)

/-- Looks for defects. -/
def validate (p : Preview) (source : String) : Except SyntaxError Unit × Preview :=
  let (held, cache) := p.cache.fetch source
  (held.map fun _ => (), ⟨cache⟩)

end Preview

end BibTemplate

import BibTemplate.Cache.Store
import BibTemplate.Render.Basic

/-!
# A cache of templates

A cache reads each template once and keeps the result for the next use. A text
with a defect is not kept. The cache counts how often it has read a template, so
that every result has a number of its own.
-/
namespace BibTemplate

structure Cache where
  store : Cache.Store
  readings : Nat

namespace Cache

/-- A cache without bound. -/
def unbounded : Cache := ⟨.unbounded, 0⟩

/-- A cache for the `n` most recently used templates, or for one if `n` is zero. -/
def bounded (n : Nat) : Cache := ⟨.bounded n, 0⟩

def capacity (c : Cache) : Option Nat := c.store.capacity

def size (c : Cache) : Nat := c.store.size

def isEmpty (c : Cache) : Bool := c.store.isEmpty

/-- The template of a text, read only if the cache does not hold it. -/
def fetch (c : Cache) (source : String) : Except SyntaxError Instance × Cache :=
  match c.store.lookup source with
  | (some held, store) => (.ok held, { c with store })
  | (none, store) =>
    match Template.parse source with
    | .error e => (.error e, { c with store })
    | .ok template =>
      let (held, store) := store.insert source ⟨c.readings, template⟩
      (.ok held, ⟨store, c.readings + 1⟩)

/-- Fetches a template and renders it. -/
def render (c : Cache) (source : String) (context : Value) (options : RenderOptions) :
    Except SyntaxError String × Cache :=
  let (held, c) := c.fetch source
  (held.map (·.template.render context options), c)

def clear (c : Cache) : Cache := { c with store := c.store.clear }

end Cache

end BibTemplate

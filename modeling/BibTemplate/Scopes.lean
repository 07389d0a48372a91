import BibTemplate.Path

/-!
# Scopes

Rendering looks values up in scopes that lie inside one another. The outermost is
the value that the template is rendered against, and it is always there; each
section adds one inside. The scope of a list element also knows the place of the
element, under names that begin with `@`. The innermost scope that knows the first
segment of a path decides, and the rest of the path is followed from there alone.
-/
namespace BibTemplate

/-- The place of an element in the list that is gone through. -/
structure LoopPosition where
  index : Nat
  length : Nat
  deriving DecidableEq, Repr

/-- The values of the seven loop names. -/
def LoopPosition.binding? (p : LoopPosition) (name : String) : Option Value :=
  if name = "@index" then some (.integer (.ofNat p.index))
  else if name = "@number" then some (.integer (.ofNat p.index + 1))
  else if name = "@first" then some (.bool (p.index == 0))
  else if name = "@last" then some (.bool (p.index + 1 == p.length))
  else if name = "@odd" then some (.bool (p.index % 2 == 1))
  else if name = "@even" then some (.bool (p.index % 2 == 0))
  else if name = "@length" then some (.integer (.ofNat p.length))
  else none

/-- The value of a section, with its place if the section goes through a list. -/
structure Scope where
  value : Value
  position : Option LoopPosition

/-- The value of a segment in one scope: the loop names come before the value's own. -/
def Scope.lookup? (s : Scope) (segment : String) : Option Value :=
  (s.position.bind (·.binding? segment)).or (s.value.step? segment)

/-- The scopes around a node: the root, and the others with the innermost first. -/
structure Scopes where
  root : Value
  inner : List Scope

namespace Scopes

def ofRoot (v : Value) : Scopes := ⟨v, []⟩

/-- All scopes, innermost first. -/
def toList (s : Scopes) : List Scope := s.inner ++ [⟨s.root, none⟩]

/-- Goes into a value. -/
def push (s : Scopes) (v : Value) : Scopes := { s with inner := ⟨v, none⟩ :: s.inner }

/-- Goes into an element of a list. -/
def pushItem (s : Scopes) (v : Value) (p : LoopPosition) : Scopes :=
  { s with inner := ⟨v, some p⟩ :: s.inner }

/-- Leaves the innermost scope, unless it is the root. -/
def pop (s : Scopes) : Scopes := { s with inner := s.inner.tail }

/-- The value of the innermost scope. -/
def current (s : Scopes) : Value :=
  match s.inner with
  | [] => s.root
  | scope :: _ => scope.value

/-- The value of a first segment in the innermost scope that knows it. -/
def lookup? (s : Scopes) (segment : String) : Option Value :=
  s.toList.findSome? (·.lookup? segment)

/-- The value at a path. -/
def resolvePath? (s : Scopes) : Path → Option Value
  | .current => some s.current
  | .segments first rest => (s.lookup? first).bind (·.follow? rest)

def resolve? (s : Scopes) (path : String) : Option Value :=
  s.resolvePath? (.ofString path)

@[simp] theorem pop_push (s : Scopes) (v : Value) : (s.push v).pop = s := rfl

@[simp] theorem pop_pushItem (s : Scopes) (v : Value) (p : LoopPosition) :
    (s.pushItem v p).pop = s := rfl

@[simp] theorem pop_ofRoot (v : Value) : (ofRoot v).pop = ofRoot v := rfl

@[simp] theorem current_push (s : Scopes) (v : Value) : (s.push v).current = v := rfl

@[simp] theorem current_pushItem (s : Scopes) (v : Value) (p : LoopPosition) :
    (s.pushItem v p).current = v := rfl

end Scopes

end BibTemplate

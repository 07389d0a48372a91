import BibTemplate.Decimal.Natural
import BibTemplate.Value.Basic

/-!
# Paths

A path names a value by segments with points between them. Each segment leads one
step down: to the member of an object with that key, or to the element of a list at
that index. A single point is the path of the current value.
-/
namespace BibTemplate

inductive Path where
  | current
  | segments (first : String) (rest : List String)
  deriving DecidableEq, Repr

/-- The path that a text means. Every text but a single point has a first segment, which
may be empty. -/
def Path.ofString (s : String) : Path :=
  if s = "." then .current
  else
    match (s.toList.splitOn '.').map String.ofList with
    | [] => .current
    | first :: rest => .segments first rest

namespace Value

/-- One step down. An index is a text of ASCII digits; other values than objects and
lists lead nowhere. -/
def step? (v : Value) (segment : String) : Option Value :=
  match v with
  | object _ => v.get? segment
  | list _ => (Decimal.readWord? segment.toList).bind v.index?
  | _ => none

@[simp] theorem step?_object (ms : Members) (segment : String) :
    (object ms).step? segment = Members.get? ms segment := rfl

@[simp] theorem step?_list (items : List Value) (segment : String) :
    (list items).step? segment =
      (Decimal.readWord? segment.toList).bind fun i => items[i]? := rfl

/-- One step after the other. -/
def follow? (v : Value) (segments : List String) : Option Value :=
  segments.foldlM step? v

@[simp] theorem follow?_nil (v : Value) : v.follow? [] = some v := rfl

@[simp] theorem follow?_cons (v : Value) (s : String) (ss : List String) :
    v.follow? (s :: ss) = (v.step? s).bind (·.follow? ss) := rfl

theorem follow?_append (v : Value) (ss ts : List String) :
    v.follow? (ss ++ ts) = (v.follow? ss).bind (·.follow? ts) := by
  simp [follow?, List.foldlM_append]

end Value

end BibTemplate

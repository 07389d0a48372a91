import BibTemplate.Cache.Basic

/-!
# Callers that share a cache

A call that fetches a template has three parts. It looks the text up, on a miss it reads
the text for itself, and then it inserts the result. Only the look-up and the insertion
touch the store, each in one piece. Between the parts of a call other calls may go on,
and the cache may be cleared.
-/
namespace BibTemplate.Cache

/-- How far a call has come. -/
inductive Stage where
  | waiting
  | missed
  | parsed (result : Instance)
  | returned (result : Except SyntaxError Instance)

/-- A cache and the calls on it, each under a name of its own. -/
structure Shared (ι : Type) where
  cache : Cache
  stage : ι → Stage

namespace Shared

variable {ι : Type} [DecidableEq ι]

/-- A cache before any of the calls. -/
def start (c : Cache) : Shared ι := ⟨c, fun _ => .waiting⟩

/-- The call `x` has come to a stage and has left the cache like this. -/
def moveOn (s : Shared ι) (x : ι) (cache : Cache) (stage : Stage) : Shared ι :=
  ⟨cache, fun y => if y = x then stage else s.stage y⟩

/-- The next part of the call `x`, which fetches the text `source x`. -/
def advance (source : ι → String) (s : Shared ι) (x : ι) : Shared ι :=
  match s.stage x with
  | .waiting =>
    match s.cache.store.lookup (source x) with
    | (some held, store) => s.moveOn x { s.cache with store } (.returned (.ok held))
    | (none, store) => s.moveOn x { s.cache with store } .missed
  | .missed =>
    match Template.parse (source x) with
    | .error e => s.moveOn x s.cache (.returned (.error e))
    | .ok template =>
      s.moveOn x { s.cache with readings := s.cache.readings + 1 }
        (.parsed ⟨s.cache.readings, template⟩)
  | .parsed result =>
    let (held, store) := s.cache.store.insert (source x) result
    s.moveOn x { s.cache with store } (.returned (.ok held))
  | .returned _ => s

/-- The parts of calls in this order, each time the next part of the call named. -/
def advanceAll (source : ι → String) (s : Shared ι) (xs : List ι) : Shared ι :=
  xs.foldl (advance source) s

end Shared

end BibTemplate.Cache

/-!
# Most recently used first

The keys that a bounded cache holds, in the order of their last use. Using a key
brings it to the front, and what does not fit the bound falls off at the end.
-/
namespace BibTemplate.Cache

/-- The keys after one more use. -/
def Recency.use (capacity : Option Nat) (keys : List String) (key : String) : List String :=
  let front := key :: keys.filter (· ≠ key)
  match capacity with
  | none => front
  | some n => front.take n

/-- The keys after a sequence of uses, the latest last. -/
def Recency.ofUses (capacity : Option Nat) (uses : List String) : List String :=
  uses.foldl (use capacity) []

end BibTemplate.Cache

import BibTemplate.Template.Draft

/-!
# The store of a cache

A store holds the results of reading templates, at most one for each text, and
notes for each when it was last used, in ticks of a clock that every look-up moves
on. A bounded store makes room for a new result by dropping the ones whose last
use is longest ago. The order of the entries has no meaning. Look-up, insertion
and clearing are the steps that callers who share a store interleave.
-/
namespace BibTemplate.Cache

/-- A template as one reading of its text gave it; the number tells apart what different
readings gave. -/
structure Instance where
  number : Nat
  template : Template

structure Entry where
  source : String
  held : Instance
  lastUsed : Nat

structure Store where
  /-- How many entries the store may hold; none if there is no bound. -/
  capacity : Option Nat
  entries : List Entry
  clock : Nat

namespace Store

/-- A store without bound. -/
def unbounded : Store := ⟨none, [], 0⟩

/-- A store for `n` entries, or for one if `n` is zero. -/
def bounded (n : Nat) : Store := ⟨some (max n 1), [], 0⟩

def find? (s : Store) (source : String) : Option Instance :=
  (s.entries.find? fun e => e.source = source).map (·.held)

/-- Looks a text up, which counts as a use of its entry. -/
def lookup (s : Store) (source : String) : Option Instance × Store :=
  let now := s.clock + 1
  let touch (e : Entry) : Entry := if e.source = source then { e with lastUsed := now } else e
  (s.find? source, { s with entries := s.entries.map touch, clock := now })

/-- An entry whose last use is longest ago. -/
def oldest? : List Entry → Option Entry
  | [] => none
  | e :: es =>
    match oldest? es with
    | none => some e
    | some f => if e.lastUsed ≤ f.lastUsed then some e else some f

/-- Drops the entry whose last use is longest ago. -/
def evict (es : List Entry) : List Entry :=
  match oldest? es with
  | none => []
  | some o => es.filter fun e => e.source ≠ o.source

/-- Drops entries until there is room for one more. -/
def makeRoom (capacity : Option Nat) (es : List Entry) : List Entry :=
  match capacity with
  | none => es
  | some n => Nat.repeat evict (es.length + 1 - n) es

/-- Stores what reading `source` gave, unless another caller has stored something for it
in the meantime, which is then kept and used. -/
def insert (s : Store) (source : String) (parsed : Instance) : Instance × Store :=
  match s.lookup source with
  | (some held, s) => (held, s)
  | (none, s) =>
    let now := s.clock + 1
    (parsed,
      { s with
        entries := ⟨source, parsed, now⟩ :: makeRoom s.capacity s.entries
        clock := now })

def size (s : Store) : Nat := s.entries.length

def isEmpty (s : Store) : Bool := s.entries.isEmpty

/-- Drops all entries. -/
def clear (s : Store) : Store := { s with entries := [] }

end Store

end BibTemplate.Cache

import BibTemplate.Proofs.Decimal.Numerals
import BibTemplate.Scopes
import Mathlib.Data.List.Basic

/-!
# How paths are resolved

The first segment of a path picks the scope, and the others are followed from what that
scope answers. So a path that goes on after another one leads to what is found by going on
from the value of that path, and in a scope that knows its first segment a path leads
where it leads from the value of the scope.
-/
namespace BibTemplate

variable {p q k path : String}

/-- The text of a path before its first point. -/
def firstSegment (path : String) : String :=
  .ofList (path.toList.takeWhile (· ≠ '.'))

/-- The texts between the points of a path. -/
def allSegments (path : String) : List String :=
  (path.toList.splitOn '.').map String.ofList

theorem head?_splitOn (d : Char) (s : List Char) :
    (s.splitOn d).head? = some (s.takeWhile (· ≠ d)) := by
  induction s with
  | nil => rfl
  | cons a s ih =>
    rw [List.splitOn_cons_eq_if_modifyHead]
    split
    · simp_all
    · simp_all

theorem allSegments_eq_cons (path : String) :
    allSegments path = firstSegment path :: (allSegments path).tail := by
  have hhead : (allSegments path).head? = some (firstSegment path) := by
    rw [allSegments, List.head?_map, head?_splitOn]
    rfl
  exact List.eq_cons_of_mem_head? hhead

theorem allSegments_append (p q : String) :
    allSegments (p ++ "." ++ q) = allSegments p ++ allSegments q := by
  have hlist : (p ++ "." ++ q).toList = p.toList ++ '.' :: q.toList := by
    simp
  rw [allSegments, hlist, List.splitOn_append_cons_self, List.map_append, allSegments, allSegments]

theorem allSegments_of_not_mem (h : '.' ∉ k.toList) : allSegments k = [k] := by
  rw [allSegments, List.splitOn_eq_singleton h, List.map_singleton, String.ofList_toList]

theorem firstSegment_of_not_mem (h : '.' ∉ k.toList) : firstSegment k = k := by
  have hcons := allSegments_eq_cons k
  rw [allSegments_of_not_mem h, List.cons.injEq] at hcons
  exact hcons.1.symm

/-- The first segment stays, and the others are followed by those of the second path. -/
theorem uncons_allSegments_append (p q : String) :
    firstSegment (p ++ "." ++ q) = firstSegment p ∧
      (allSegments (p ++ "." ++ q)).tail = (allSegments p).tail ++ allSegments q := by
  have h := allSegments_append p q
  rwa [allSegments_eq_cons, allSegments_eq_cons p, List.cons_append, List.cons.injEq] at h

theorem Value.follow?_allSegments (v : Value) (q : String) :
    v.follow? (allSegments q) =
      (v.step? (firstSegment q)).bind (·.follow? (allSegments q).tail) := by
  rw [allSegments_eq_cons, follow?_cons, List.tail_cons]

theorem Path.ofString_eq_segments (h : path ≠ ".") :
    Path.ofString path = .segments (firstSegment path) (allSegments path).tail := by
  rw [Path.ofString, if_neg h, ← allSegments, allSegments_eq_cons]
  rfl

theorem append_eq_current_iff : p ++ "." ++ q = "." ↔ p = "" ∧ q = "" := by
  constructor
  · intro h
    have hlength := congrArg String.length h
    have hpoint : ".".length = 1 := rfl
    simp only [String.length_append] at hlength
    rw [← String.length_eq_zero_iff, ← String.length_eq_zero_iff]
    omega
  · rintro ⟨rfl, rfl⟩
    rfl

theorem append_ne_current (hp : p ≠ "") (q : String) : p ++ "." ++ q ≠ "." :=
  fun h => hp (append_eq_current_iff.1 h).1

namespace Scopes

variable {s : Scopes}

theorem resolve?_eq (s : Scopes) (h : path ≠ ".") :
    s.resolve? path = (s.lookup? (firstSegment path)).bind (·.follow? (allSegments path).tail) := by
  rw [resolve?, Path.ofString_eq_segments h, resolvePath?]

/-- A path that goes on after another one leads on from the value of that path. -/
theorem resolve?_append (s : Scopes) (hp : p ≠ ".") (hq : p ++ "." ++ q ≠ ".") :
    s.resolve? (p ++ "." ++ q) = (s.resolve? p).bind (·.follow? (allSegments q)) := by
  obtain ⟨hfirst, htail⟩ := uncons_allSegments_append p q
  simp only [s.resolve?_eq hq, s.resolve?_eq hp, hfirst, htail, Value.follow?_append,
    Option.bind_assoc]

/-- The innermost scope decides if it answers the first segment. -/
theorem resolve?_of_innermost (scope : Scope) {others : List Scope} {v : Value}
    (hs : s.inner = scope :: others) (hq : q ≠ ".")
    (hfound : scope.lookup? (firstSegment q) = some v) :
    s.resolve? q = v.follow? (allSegments q).tail := by
  have hlookup : s.lookup? (firstSegment q) = some v := by
    rw [lookup?, toList, hs, List.cons_append, List.findSome?_cons, hfound]
  rw [s.resolve?_eq hq, hlookup, Option.bind_some]

/-- If that answer comes from the value of the scope, so does the value at the path. -/
theorem resolve?_of_value (scope : Scope) {others : List Scope} (hs : s.inner = scope :: others)
    (hq : q ≠ ".") (hlookup : scope.lookup? (firstSegment q) = scope.value.step? (firstSegment q))
    (hknown : (scope.value.step? (firstSegment q)).isSome) :
    s.resolve? q = scope.value.follow? (allSegments q) := by
  obtain ⟨v, hv⟩ := Option.isSome_iff_exists.1 hknown
  rw [resolve?_of_innermost scope hs hq (hlookup.trans hv), Value.follow?_allSegments, hv,
    Option.bind_some]

theorem resolve?_push {v : Value} (s : Scopes) (hq : q ≠ ".")
    (hknown : (v.step? (firstSegment q)).isSome) :
    (s.push v).resolve? q = v.follow? (allSegments q) :=
  resolve?_of_value ⟨v, none⟩ rfl hq rfl hknown

end Scopes

/-- The names that the place of a list element is known by. -/
def loopNames : List String :=
  ["@index", "@number", "@first", "@last", "@odd", "@even", "@length"]

theorem LoopPosition.binding?_of_not_mem (p : LoopPosition) {name : String}
    (h : name ∉ loopNames) : p.binding? name = none := by
  simp only [loopNames, List.mem_cons, List.not_mem_nil, or_false, not_or] at h
  simp only [binding?, h, if_false]

theorem Scopes.resolve?_pushItem {v : Value} (s : Scopes) (position : LoopPosition)
    (hq : q ≠ ".") (hloop : firstSegment q ∉ loopNames)
    (hknown : (v.step? (firstSegment q)).isSome) :
    (s.pushItem v position).resolve? q = v.follow? (allSegments q) := by
  refine resolve?_of_value ⟨v, some position⟩ rfl hq ?_ hknown
  rw [Scope.lookup?, Option.bind_some, position.binding?_of_not_mem hloop, Option.none_or]

/-- A loop name comes before a key of the element. -/
theorem Scopes.resolve?_pushItem_of_binding? {b : Value} {position : LoopPosition} (s : Scopes)
    (v : Value) (hk : '.' ∉ k.toList) (hb : position.binding? k = some b) :
    (s.pushItem v position).resolve? k = some b := by
  have hne : k ≠ "." := by
    rintro rfl
    exact hk (by decide)
  have hfound : Scope.lookup? ⟨v, some position⟩ (firstSegment k) = some b := by
    rw [firstSegment_of_not_mem hk, Scope.lookup?, Option.bind_some, hb, Option.some_or]
  rw [resolve?_of_innermost ⟨v, some position⟩ rfl hne hfound, allSegments_of_not_mem hk,
    List.tail_cons, Value.follow?_nil]

@[simp] theorem Scopes.resolve?_current (s : Scopes) : s.resolve? "." = some s.current := rfl

/-- An element is found by the digits of its index, if the index fits 64 bits. -/
theorem Value.step?_list_repr {i : ℕ} (items : List Value) (h : i < Decimal.wordSize) :
    (list items).step? i.repr = items[i]? := by
  rw [step?_list, Nat.toList_repr, Decimal.readWord?_toDigits h, Option.bind_some]

theorem not_mem_repr (i : ℕ) : '.' ∉ i.repr.toList := by
  intro h
  rw [Nat.toList_repr] at h
  have hdigit : ('.').isDigit := Nat.isDigit_of_mem_toDigits (by omega) (by omega) h
  exact absurd hdigit (by decide)

/-- The path of an element of a list. -/
theorem Scopes.resolve?_element {s : Scopes} {items : List Value} {i : ℕ}
    (h : s.resolve? p = some (.list items)) (hne : p ≠ "") (hcurrent : p ≠ ".")
    (hi : i < Decimal.wordSize) : s.resolve? (p ++ "." ++ i.repr) = items[i]? := by
  rw [s.resolve?_append hcurrent (append_ne_current hne _), h, Option.bind_some,
    allSegments_of_not_mem (not_mem_repr i), Value.follow?_cons, Value.step?_list_repr items hi]
  simp

end BibTemplate

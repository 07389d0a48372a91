import BibTemplate.Value.Basic

/-!
# Values as documents

A document has no repeated keys and no number that is not finite. The document
of a value keeps, in every object, each key once: in the place of its first
occurrence and with the value of its last. Infinities and NaN become null.
-/
namespace BibTemplate.Value

mutual

/-- The document of a value. -/
def document : Value → Value
  | .float x => if x.isFinite then .float x else .null
  | .list items => .list (documentItems items)
  | .object ms => .object (documentMembers [] ms)
  | v => v
termination_by structural v => v

def documentItems : List Value → List Value
  | [] => []
  | v :: vs => v.document :: documentItems vs
termination_by structural vs => vs

/-- Sets the members one after the other in `kept`. -/
def documentMembers (kept : Members) : List (String × Value) → Members
  | [] => kept
  | (key, v) :: ms => documentMembers (kept.set key v.document) ms
termination_by structural ms => ms

end

theorem documentItems_eq_map (items : List Value) : documentItems items = items.map document := by
  induction items with
  | nil => rfl
  | cons v vs ih => simp [documentItems, ih]

theorem documentMembers_eq_foldl (kept : Members) (ms : List (String × Value)) :
    documentMembers kept ms = ms.foldl (fun kept m => kept.set m.1 m.2.document) kept := by
  induction ms generalizing kept with
  | nil => rfl
  | cons m ms ih => exact ih _

end BibTemplate.Value

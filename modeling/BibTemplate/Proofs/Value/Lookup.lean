import BibTemplate.Proofs.Scopes.Binders
import BibTemplate.Proofs.Value.Documents
import BibTemplate.Render.Walk

/-!
# Members of a value and of its document

Looking a key up finds the first member that has it, and the document shows the last one. So
a value and its document have members of the same keys, and they agree on a key that occurs
no more than once. A key that occurs again may be shown with another value than the one that
is found.
-/
namespace BibTemplate.Value

/-- The value of the last member with a key. -/
def getLast? : Value → String → Option Value
  | object ms, key => Members.get? ms.reverse key
  | _, _ => none

/-- The key does not occur again in the object. -/
def AtMostOnce (v : Value) (key : String) : Prop :=
  ∀ ms : Members, v = .object ms → (ms.map Prod.fst).count key ≤ 1

variable {v : Value} {ms : Members} {key : String}

namespace Members

theorem get?_append (ms ns : Members) (key : String) :
    Members.get? (ms ++ ns) key = (ms.get? key).or (ns.get? key) := by
  rw [get?, List.find?_append, Option.map_or, ← get?, ← get?]

theorem isSome_get?_iff : (ms.get? key).isSome ↔ key ∈ ms.map Prod.fst := by
  rw [get?, Option.isSome_map, List.find?_isSome, List.mem_map]
  simp only [decide_eq_true_eq]

theorem get?_reverse (h : (ms.map Prod.fst).count key ≤ 1) :
    Members.get? ms.reverse key = ms.get? key := by
  induction ms with
  | nil => rfl
  | cons m ms ih =>
    rw [List.reverse_cons, get?_append]
    rw [List.map_cons, List.count_cons] at h
    by_cases hm : m.1 = key
    · have hnot : key ∉ ms.reverse.map Prod.fst := by
        rw [List.map_reverse, List.mem_reverse, ← List.count_eq_zero]
        simpa [hm] using h
      have hnone : Members.get? ms.reverse key = none := by
        rwa [← Option.not_isSome_iff_eq_none, isSome_get?_iff]
      rw [hnone, Option.none_or]
      simp [get?, hm]
    · have hrest := ih (by omega)
      rw [hrest]
      simp [get?, hm]

end Members

theorem get?_document (v : Value) (key : String) :
    v.document.get? key = (v.getLast? key).map document := by
  cases v with
  | object ms => exact get?_documentMembers ms key
  | float x =>
    rw [document]
    split <;> rfl
  | _ => rfl

theorem isSome_getLast? (v : Value) (key : String) :
    (v.getLast? key).isSome = (v.get? key).isSome := by
  cases v with
  | object ms =>
    rw [getLast?, get?_object, Bool.eq_iff_iff, Members.isSome_get?_iff, Members.isSome_get?_iff,
      List.map_reverse, List.mem_reverse]
  | _ => rfl

theorem getLast?_eq_get? (h : v.AtMostOnce key) : v.getLast? key = v.get? key := by
  cases v with
  | object ms => exact Members.get?_reverse (h ms rfl)
  | _ => rfl

theorem text_object (ms : Members) :
    (object ms).text.toList = '\x7b' ::
      ([','].intercalate ((documentMembers [] ms).map fun m =>
        Json.quote m.1.toList ++ ':' :: Json.write m.2) ++ ['\x7d']) := by
  rw [text, Json.print, String.toList_ofList, document, Json.write, Json.writeMembers_eq_map]

/-- A member of the document comes from the last member with its key, and a key is found in the
document if it is found in the value. For a key that occurs no more than once both are the same
member, and what a path shows that goes on to the key is what the text of the object has for it:
the text is written from members that have no key twice. -/
theorem get?_document_agrees (v : Value) (key : String) :
    (v.document.get? key).isSome = (v.get? key).isSome ∧
    v.document.get? key = (v.getLast? key).map document ∧
    (v.AtMostOnce key → v.document.get? key = (v.get? key).map document ∧
      ∀ ms, v = .object ms → ∀ (s : Scopes) (path : String), s.resolve? path = some v →
        path ≠ "." → '.' ∉ key.toList → (path ≠ "" ∨ key ≠ "") →
          s.resolve? (path ++ "." ++ key) = v.get? key ∧
          ∃ kept : Members, (kept.map Prod.fst).Nodup ∧
            kept.get? key = (v.get? key).map document ∧
            (s.textAt path).toList = '\x7b' ::
              ([','].intercalate (kept.map fun m =>
                Json.quote m.1.toList ++ ':' :: Json.write m.2) ++ ['\x7d'])) := by
  refine ⟨?_, get?_document v key, ?_⟩
  · rw [get?_document, Option.isSome_map, isSome_getLast?]
  · intro honce
    have hdocument : v.document.get? key = (v.get? key).map document := by
      rw [get?_document, getLast?_eq_get? honce]
    refine ⟨hdocument, ?_⟩
    rintro ms rfl s path hpath hcurrent hkey hne
    refine ⟨?_, documentMembers [] ms, nodup_keys_documentMembers ms, hdocument, ?_⟩
    · rw [s.resolve?_step hcurrent hkey hne, hpath, Option.bind_some]
      rfl
    · rw [Scopes.textAt, hpath]
      exact text_object ms

/-- A key that occurs once between two members with the same key. -/
theorem get?_document_agrees_year :
    let v : Value := .object [("doi", .null), ("year", .integer 1965), ("doi", .string "x")]
    let s := Scopes.ofRoot (.object [("item", v)])
    v.AtMostOnce "year" ∧ v.document.get? "year" = some (.integer 1965) ∧
      s.resolve? ("item" ++ "." ++ "year") = v.get? "year" := by
  intro v s
  have honce : v.AtMostOnce "year" := by
    intro ms hms
    rw [← Value.object.inj hms]
    decide
  obtain ⟨-, -, hagrees⟩ := get?_document_agrees v "year"
  obtain ⟨hdocument, hpath⟩ := hagrees honce
  exact ⟨honce, hdocument, (hpath _ rfl s "item" rfl (by decide) (by decide) (.inl (by decide))).1⟩

/-- The first of two members with a key is found, and the document has the second. -/
theorem get?_document_ne_of_repeated_key :
    let v : Value := .object [("a", .integer 1), ("a", .integer 2)]
    v.get? "a" = some (.integer 1) ∧ v.document.get? "a" = some (.integer 2) ∧
      v.document.get? "a" ≠ (v.get? "a").map document := by
  intro v
  have hfirst : v.get? "a" = some (.integer 1) := rfl
  have hlast : v.document.get? "a" = some (.integer 2) := rfl
  refine ⟨hfirst, hlast, ?_⟩
  rw [hfirst, hlast]
  intro he
  injection he with he
  injection he with he
  exact absurd he (by decide)

end BibTemplate.Value

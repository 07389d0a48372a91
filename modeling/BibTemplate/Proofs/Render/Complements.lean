import BibTemplate.Proofs.Render.Clauses
import Mathlib.Logic.ExistsUnique

/-!
# A section and its complement

Of the two sections over a path one shows its body and the other does not, whatever the value
at the path is and wherever it is found. So they can be swapped, and nothing is shown by one
inside the other. The first shows its body as often as the value says, and the second once if
that is not at all.
-/
namespace BibTemplate

namespace Scopes

/-- How often the value at a path has a section show its body. -/
def repeats (s : Scopes) (path : String) : ℕ :=
  match s.resolve? path with
  | none => 0
  | some .null => 0
  | some (.bool b) => b.toNat
  | some (.integer n) => if n = 0 then 0 else 1
  | some (.float x) => if x == 0 || x.isNaN then 0 else 1
  | some (.string text) => if text = "" then 0 else 1
  | some (.list items) => items.length
  | some (.object _) => 1

/-- The scopes in which a section shows its body, one after the other. -/
def rounds (s : Scopes) (path : String) (negated : Bool) : List Scopes :=
  if negated then if s.repeats path = 0 then [s] else []
  else
    match s.resolve? path with
    | some (.list items) => items.zipIdx.map fun item => s.pushItem item.1 ⟨item.2, items.length⟩
    | some (.object ms) => [s.push (.object ms)]
    | _ => .replicate (s.repeats path) s

variable {s : Scopes} {path : String}

theorem repeats_eq_zero_iff : s.repeats path = 0 ↔ s.Falsy path := by
  rw [falsy_iff, truthyAt, repeats]
  cases s.resolve? path with
  | none => simp
  | some v => cases v <;> simp [Value.truthy, bne]

theorem repeats_of_scalar {v : Value} (h : s.resolve? path = some v) (ht : v.truthy)
    (hl : ∀ items, v ≠ .list items) : s.repeats path = 1 := by
  rw [repeats, h]
  cases v with
  | list items => exact absurd rfl (hl items)
  | _ => simp_all [Value.truthy, bne]

theorem length_rounds (s : Scopes) (path : String) :
    (s.rounds path false).length = s.repeats path := by
  rw [rounds, if_neg Bool.false_ne_true]
  cases h : s.resolve? path with
  | none => simp
  | some v => cases v <;> simp [repeats, h]

theorem rounds_false_eq_nil_iff : s.rounds path false = [] ↔ s.repeats path = 0 := by
  rw [← List.length_eq_zero_iff, length_rounds]

theorem rounds_true_eq_nil_iff : s.rounds path true = [] ↔ s.repeats path ≠ 0 := by
  rw [rounds, if_pos rfl]
  split <;> simp_all

/-- Exactly one of the two sections has no round. -/
theorem existsUnique_rounds_eq_nil (s : Scopes) (path : String) :
    ∃! negated, s.rounds path negated = [] := by
  by_cases hzero : s.repeats path = 0
  · refine ⟨false, rounds_false_eq_nil_iff.2 hzero, fun negated h => ?_⟩
    cases negated with
    | false => rfl
    | true => exact absurd hzero (rounds_true_eq_nil_iff.1 h)
  · refine ⟨true, rounds_true_eq_nil_iff.2 hzero, fun negated h => ?_⟩
    cases negated with
    | false => exact absurd (rounds_false_eq_nil_iff.1 h) hzero
    | true => rfl

end Scopes

namespace Node

/-- A section shows its body in each of its rounds and nowhere else. -/
theorem evalAll_block (s : Scopes) (path : String) (negated : Bool) (body : List Node) :
    evalAll [.block path negated body] s =
      .join ((s.rounds path negated).map (evalAll body)) := by
  by_cases hf : s.Falsy path
  · have hzero := Scopes.repeats_eq_zero_iff.2 hf
    cases negated with
    | false =>
      rw [denotation_evalAll.skipped body hf, Scopes.rounds_false_eq_nil_iff.2 hzero]
      rfl
    | true =>
      rw [denotation_evalAll.inverted body hf, Scopes.rounds, if_pos rfl, if_pos hzero]
      simp
  · have hpos : s.repeats path ≠ 0 := mt Scopes.repeats_eq_zero_iff.1 hf
    cases negated with
    | true =>
      rw [denotation_evalAll.invertedSkipped body hf, Scopes.rounds_true_eq_nil_iff.2 hpos]
      rfl
    | false =>
      obtain ⟨v, hv, ht⟩ : ∃ v, s.resolve? path = some v ∧ v.truthy = true := by
        simpa [Scopes.Falsy] using hf
      rw [Scopes.rounds, if_neg Bool.false_ne_true, hv]
      cases v with
      | list items =>
        rw [denotation_evalAll.list body hv, List.map_map]
        rfl
      | object ms =>
        rw [denotation_evalAll.object body hv]
        simp
      | _ =>
        have hone := Scopes.repeats_of_scalar hv ht (by simp)
        rw [denotation_evalAll.scalar body hv ht (by simp) (by simp), hone]
        simp

theorem evalAll_swap (s : Scopes) (path : String) (body other : List Node) :
    evalAll [.block path false body, .block path true other] s =
      evalAll [.block path true other, .block path false body] s := by
  rw [denotation_evalAll.cons, denotation_evalAll.cons s _ [.block path false body]]
  by_cases hf : s.Falsy path
  · rw [denotation_evalAll.skipped body hf, String.empty_append, String.append_empty]
  · rw [denotation_evalAll.invertedSkipped other hf, String.empty_append, String.append_empty]

theorem evalAll_block_block (s : Scopes) (path : String) (body : List Node) :
    evalAll [.block path true [.block path false body]] s = "" := by
  by_cases hf : s.Falsy path
  · rw [denotation_evalAll.inverted _ hf, denotation_evalAll.skipped body hf]
  · exact denotation_evalAll.invertedSkipped _ hf

theorem evalAll_block_literal (s : Scopes) (path text : String) (negated : Bool) :
    evalAll [.block path negated [.literal text]] s =
      .join (.replicate (s.rounds path negated).length text) := by
  have hliteral : ∀ t : Scopes, evalAll [.literal text] t = text :=
    fun t => denotation_evalAll.literal t text
  rw [evalAll_block, funext hliteral, List.map_const']

/-- A section leaves its body out, whatever the body is, just when it has no round. -/
theorem walkAll_block_eq_self_iff (w : Walk) (path : String) (negated : Bool) :
    (∀ body, walkAll [.block path negated body] w = w) ↔ w.scopes.rounds path negated = [] := by
  constructor
  · intro h
    have hliteral := h [.literal "-"]
    rw [walkAll_eq, evalAll_block_literal] at hliteral
    cases hrounds : w.scopes.rounds path negated with
    | nil => rfl
    | cons t ts =>
      rw [hrounds, List.length_cons, List.replicate_succ, String.join_cons] at hliteral
      have hlength := congrArg (·.output.length) hliteral
      have hone : "-".length = 1 := rfl
      simp only [String.length_append] at hlength
      omega
  · intro h body
    rw [walkAll_eq, evalAll_block, h, List.map_nil, String.join_nil, String.append_empty]

/-- Exactly one of the two sections over a path leaves its body out, and the other shows it in its
rounds. So the two can be swapped, and the one inside the other shows nothing. A text is shown as
often as the value at the path says, or once by the other section if that is not at all. -/
theorem walkAll_complements (w : Walk) (path : String) :
    (∃! negated, ∀ body, walkAll [.block path negated body] w = w) ∧
    (∀ negated body, walkAll [.block path negated body] w =
      w.emit (.join ((w.scopes.rounds path negated).map (evalAll body)))) ∧
    (∀ body other, walkAll [.block path false body, .block path true other] w =
      walkAll [.block path true other, .block path false body] w) ∧
    (∀ body, walkAll [.block path true [.block path false body]] w = w) ∧
    ∀ text,
      walkAll [.block path false [.literal text]] w =
        w.emit (.join (.replicate (w.scopes.repeats path) text)) ∧
      walkAll [.block path true [.literal text]] w =
        w.emit (if w.scopes.repeats path = 0 then text else "") := by
  refine ⟨?_, ?_, ?_, ?_, ?_⟩
  · simp only [walkAll_block_eq_self_iff]
    exact w.scopes.existsUnique_rounds_eq_nil path
  · intro negated body
    rw [walkAll_eq, evalAll_block, Walk.emit]
  · intro body other
    rw [walkAll_eq, walkAll_eq, evalAll_swap]
  · intro body
    rw [walkAll_eq, evalAll_block_block, String.append_empty]
  · intro text
    rw [walkAll_eq, walkAll_eq, evalAll_block_literal, evalAll_block_literal,
      Scopes.length_rounds, Scopes.rounds, if_pos rfl]
    refine ⟨rfl, ?_⟩
    split <;> simp [Walk.emit]

/-- A loop name is a value like any other, here in the first round and in the second. -/
example : (walkAll [.block "tags" false
      [.block "@first" false [.literal "a"], .block "@first" true [.literal "b"]]]
    ⟨.ofRoot (.object [("tags", .list [.null, .null])]), ""⟩).output = "ab" := rfl

end Node

end BibTemplate

import BibTemplate.Proofs.Render.Denotation

/-!
# What a template means, clause by clause

The meaning of nodes in given scopes is fixed by one clause for each kind of node and each
kind of value that a section may find. There is exactly one function that satisfies the
clauses, and a walk adds the text that it gives to the output, with the scopes at the end
as they were at the beginning.
-/
namespace BibTemplate

/-- The path leads to no value or to a falsy one. -/
def Scopes.Falsy (s : Scopes) (path : String) : Prop :=
  ∀ v, s.resolve? path = some v → v.truthy = false

/-- The clauses for the text of nodes. Scopes are handed down and never taken back. -/
structure Denotation (eval : Scopes → List Node → String) : Prop where
  nil (s : Scopes) : eval s [] = ""
  cons (s : Scopes) (n : Node) (ns : List Node) : eval s (n :: ns) = eval s [n] ++ eval s ns
  literal (s : Scopes) (text : String) : eval s [.literal text] = text
  present {s : Scopes} {path : String} {v : Value} (filters : List Filter) :
    s.resolve? path = some v →
      eval s [.placeholder path filters] = Filter.applyAll filters v.text
  absent {s : Scopes} {path : String} (filters : List Filter) :
    s.resolve? path = none → eval s [.placeholder path filters] = Filter.applyAll filters ""
  skipped {s : Scopes} {path : String} (body : List Node) :
    s.Falsy path → eval s [.block path false body] = ""
  list {s : Scopes} {path : String} {items : List Value} (body : List Node) :
    s.resolve? path = some (.list items) →
      eval s [.block path false body] =
        .join (items.zipIdx.map fun item =>
          eval (s.pushItem item.1 ⟨item.2, items.length⟩) body)
  object {s : Scopes} {path : String} {ms : List (String × Value)} (body : List Node) :
    s.resolve? path = some (.object ms) →
      eval s [.block path false body] = eval (s.push (.object ms)) body
  scalar {s : Scopes} {path : String} {v : Value} (body : List Node) :
    s.resolve? path = some v → v.truthy → (∀ items, v ≠ .list items) →
      (∀ ms, v ≠ .object ms) → eval s [.block path false body] = eval s body
  inverted {s : Scopes} {path : String} (body : List Node) :
    s.Falsy path → eval s [.block path true body] = eval s body
  invertedSkipped {s : Scopes} {path : String} (body : List Node) :
    ¬ s.Falsy path → eval s [.block path true body] = ""

theorem Scopes.falsy_iff {s : Scopes} {path : String} :
    s.Falsy path ↔ s.truthyAt path = false := by
  unfold Falsy truthyAt
  cases s.resolve? path <;> simp

theorem Node.evalAll_singleton (n : Node) (s : Scopes) : evalAll [n] s = n.eval s := by
  simp [evalAll]

theorem Node.denotation_evalAll : Denotation fun s ns => evalAll ns s where
  nil s := rfl
  cons s n ns := by rw [evalAll_singleton, evalAll]
  literal s text := by rw [evalAll_singleton, eval]
  present filters h := by
    rw [evalAll_singleton, eval, Scopes.textAt, h]
    rfl
  absent filters h := by
    rw [evalAll_singleton, eval, Scopes.textAt, h]
    rfl
  skipped body h := by
    rw [evalAll_singleton, eval]
    split
    · rfl
    · rename_i v hv
      rw [h v hv]
      rfl
  list {s path items} body h := by
    rw [evalAll_singleton, eval, h]
    cases items <;> rfl
  object body h := by
    rw [evalAll_singleton, eval, h]
    rfl
  scalar {s path v} body h ht hl ho := by
    rw [evalAll_singleton, eval, h]
    cases v with
    | list items => exact absurd rfl (hl items)
    | object ms => exact absurd rfl (ho ms)
    | _ => exact if_pos ht
  inverted body h := by
    rw [evalAll_singleton, eval, Scopes.falsy_iff.1 h]
    rfl
  invertedSkipped body h := by
    rw [Scopes.falsy_iff, Bool.not_eq_false] at h
    rw [evalAll_singleton, eval, h]
    rfl

mutual

theorem Denotation.eval_singleton {e : Scopes → List Node → String} (he : Denotation e)
    (s : Scopes) : (n : Node) → e s [n] = n.eval s
  | .literal text => by rw [he.literal, Node.eval]
  | .placeholder path filters => by
    rw [Node.eval, Scopes.textAt]
    cases h : s.resolve? path with
    | none => exact he.absent filters h
    | some v => exact he.present filters h
  | .block path false body => by
    rw [← Node.evalAll_singleton]
    have hclauses := Node.denotation_evalAll
    by_cases hf : s.Falsy path
    · rw [he.skipped body hf, hclauses.skipped body hf]
    · obtain ⟨v, hv, ht⟩ : ∃ v, s.resolve? path = some v ∧ v.truthy = true := by
        simpa [Scopes.Falsy] using hf
      cases v with
      | list items =>
        rw [he.list body hv, hclauses.list body hv]
        simp only [he.eval_eq _ body]
      | object ms => rw [he.object body hv, hclauses.object body hv, he.eval_eq _ body]
      | _ =>
        rw [he.scalar body hv ht (by simp) (by simp),
          hclauses.scalar body hv ht (by simp) (by simp), he.eval_eq _ body]
  | .block path true body => by
    rw [← Node.evalAll_singleton]
    have hclauses := Node.denotation_evalAll
    by_cases hf : s.Falsy path
    · rw [he.inverted body hf, hclauses.inverted body hf, he.eval_eq _ body]
    · rw [he.invertedSkipped body hf, hclauses.invertedSkipped body hf]

theorem Denotation.eval_eq {e : Scopes → List Node → String} (he : Denotation e)
    (s : Scopes) : (ns : List Node) → e s ns = Node.evalAll ns s
  | [] => he.nil s
  | n :: ns => by
    rw [he.cons, Node.evalAll, he.eval_singleton s n, he.eval_eq s ns]

end

/-- The clauses have exactly one solution. Whatever the scopes and the output are when a walk
comes to nodes, it adds the text that the solution gives, and leaves the same scopes. -/
theorem Node.walkAll_denotes :
    Denotation (fun s ns => evalAll ns s) ∧
      (∀ e, Denotation e → e = fun s ns => evalAll ns s) ∧
      ∀ (ns : List Node) (w : Walk),
        walkAll ns w = ⟨w.scopes, w.output ++ evalAll ns w.scopes⟩ := by
  refine ⟨denotation_evalAll, ?_, ?_⟩
  · intro e he
    funext s ns
    exact he.eval_eq s ns
  · intro ns w
    exact walkAll_eq w ns

end BibTemplate

import Mathlib.Data.List.Forall2

/-!
# Steps that may fail

A chain of steps that may fail succeeds just when every step does, and two chains go
alike when their steps do.
-/
namespace BibTemplate

variable {α β ε : Type}

theorem bind_eq_ok_iff {x : Except ε α} {f : α → Except ε β} {b : β} :
    x.bind f = .ok b ↔ ∃ a, x = .ok a ∧ f a = .ok b := by
  cases x <;> simp [Except.bind]

theorem map_eq_ok_iff {x : Except ε α} {f : α → β} {b : β} :
    x.map f = .ok b ↔ ∃ a, x = .ok a ∧ f a = b := by
  cases x <;> simp [Except.map]

theorem map_eq_error_iff {x : Except ε α} {f : α → β} {e : ε} :
    x.map f = .error e ↔ x = .error e := by
  cases x <;> simp [Except.map]

theorem mapM_eq_ok_iff {f : α → Except ε β} {xs : List α} {ys : List β} :
    xs.mapM f = .ok ys ↔ List.Forall₂ (fun x y => f x = .ok y) xs ys := by
  induction xs generalizing ys with
  | nil => cases ys <;> simp [pure, Except.pure]
  | cons x xs ih =>
    rw [List.mapM_cons]
    change ((f x).bind fun y => (xs.mapM f).bind fun ys => .ok (y :: ys)) = _ ↔ _
    rw [bind_eq_ok_iff]
    constructor
    · intro h
      obtain ⟨y, hy, h⟩ := h
      obtain ⟨zs, hzs, h⟩ := bind_eq_ok_iff.1 h
      cases h
      exact .cons hy (ih.1 hzs)
    · intro h
      cases h with
      | cons hy hys => exact ⟨_, hy, bind_eq_ok_iff.2 ⟨_, ih.2 hys, rfl⟩⟩

theorem foldlM_cons_eq_bind (f : α → β → Except ε α) (a : α) (b : β) (bs : List β) :
    (b :: bs).foldlM f a = (f a b).bind fun a => bs.foldlM f a := rfl

theorem foldlM_append_eq_bind (f : α → β → Except ε α) (a : α) (bs cs : List β) :
    (bs ++ cs).foldlM f a = (bs.foldlM f a).bind fun a => cs.foldlM f a :=
  List.foldlM_append

/-- A chain that fails does so at the first step that fails. -/
theorem exists_of_foldlM_eq_error {f : α → β → Except ε α} {a : α} {bs : List β} {e : ε}
    (h : bs.foldlM f a = .error e) :
    ∃ cs b ds a', bs = cs ++ b :: ds ∧ cs.foldlM f a = .ok a' ∧ f a' b = .error e := by
  induction bs generalizing a with
  | nil => cases h
  | cons b bs ih =>
    rw [foldlM_cons_eq_bind] at h
    cases hf : f a b with
    | error e' =>
      rw [hf] at h
      cases h
      exact ⟨[], b, bs, a, rfl, rfl, hf⟩
    | ok a₁ =>
      rw [hf] at h
      obtain ⟨cs, c, ds, a', rfl, hcs, hc⟩ := ih h
      refine ⟨b :: cs, c, ds, a', rfl, ?_, hc⟩
      rw [foldlM_cons_eq_bind, hf]
      exact hcs

theorem exists_of_mapM_eq_error {f : α → Except ε β} {xs : List α} {e : ε}
    (h : xs.mapM f = .error e) :
    ∃ ys x zs, xs = ys ++ x :: zs ∧ (∀ y ∈ ys, ∃ b, f y = .ok b) ∧ f x = .error e := by
  induction xs with
  | nil => cases h
  | cons x xs ih =>
    rw [List.mapM_cons] at h
    change ((f x).bind fun b => (xs.mapM f).bind fun bs => .ok (b :: bs)) = _ at h
    cases hf : f x with
    | error e' =>
      rw [hf] at h
      cases h
      exact ⟨[], x, xs, rfl, by simp, hf⟩
    | ok b =>
      rw [hf] at h
      cases hrest : xs.mapM f with
      | ok bs =>
        rw [hrest] at h
        cases h
      | error e' =>
        rw [hrest] at h
        cases h
        obtain ⟨ys, z, zs, rfl, hys, hz⟩ := ih hrest
        refine ⟨x :: ys, z, zs, rfl, ?_, hz⟩
        intro y hy
        rcases List.mem_cons.1 hy with rfl | hy
        · exact ⟨b, hf⟩
        · exact hys y hy

/-- Two results that are both errors or both not, and then stand in a relation. -/
inductive Alike {δ α ε β : Type} (E : δ → ε → Prop) (R : α → β → Prop) :
    Except δ α → Except ε β → Prop
  | error {x : δ} {y : ε} : E x y → Alike E R (.error x) (.error y)
  | ok {x : α} {y : β} : R x y → Alike E R (.ok x) (.ok y)

theorem alike_self (x : Except ε α) : Alike Eq Eq x x := by
  cases x with
  | error e => exact .error rfl
  | ok a => exact .ok rfl

theorem Alike.bind {δ α α' β β' : Type} {E : δ → ε → Prop} {R : α → β → Prop}
    {S : α' → β' → Prop} {x : Except δ α} {y : Except ε β} {f : α → Except δ α'}
    {g : β → Except ε β'} (h : Alike E R x y) (hfg : ∀ a b, R a b → Alike E S (f a) (g b)) :
    Alike E S (x.bind f) (y.bind g) := by
  cases h with
  | error h => exact .error h
  | ok h => exact hfg _ _ h

end BibTemplate

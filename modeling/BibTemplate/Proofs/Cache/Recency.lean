import BibTemplate.Cache.Recency
import Mathlib.Data.List.Dedup
import Mathlib.Data.List.Induction

/-!
# The keys of a sequence of uses

The keys that a cache holds are the distinct ones among all that were used, the last
used first, as many as the bound allows.
-/
namespace BibTemplate.Cache.Recency

/-- The first elements, as many as the bound allows. -/
def atMost {α : Type} (capacity : Option ℕ) (xs : List α) : List α :=
  match capacity with
  | none => xs
  | some n => xs.take n

section AtMost

variable {α β : Type}

theorem atMost_sublist (capacity : Option ℕ) (xs : List α) : (atMost capacity xs).Sublist xs := by
  cases capacity with
  | none => exact .refl xs
  | some n => exact List.take_sublist n xs

theorem map_atMost (f : α → β) (capacity : Option ℕ) (xs : List α) :
    (atMost capacity xs).map f = atMost capacity (xs.map f) := by
  cases capacity with
  | none => rfl
  | some n => exact List.map_take

theorem length_atMost_le {capacity : Option ℕ} {n : ℕ} (h : capacity = some n) (xs : List α) :
    (atMost capacity xs).length ≤ n := by
  subst h
  exact List.length_take_le n xs

end AtMost

theorem filter_ne_eq_self {α : Type} {key : α → String} {xs : List α} {k : String}
    (h : ∀ x ∈ xs, key x ≠ k) : xs.filter (fun x => key x ≠ k) = xs := by
  rw [List.filter_eq_self]
  intro x hx
  simpa using h x hx

theorem use_eq (capacity : Option ℕ) (keys : List String) (key : String) :
    use capacity keys key = atMost capacity (key :: keys.filter (· ≠ key)) := by
  cases capacity <;> rfl

theorem ofUses_concat (capacity : Option ℕ) (us : List String) (key : String) :
    ofUses capacity (us ++ [key]) = use capacity (ofUses capacity us) key :=
  List.foldl_concat ..

theorem dedup_concat (us : List String) (key : String) :
    (us ++ [key]).dedup = us.dedup.filter (· ≠ key) ++ [key] := by
  induction us with
  | nil => rfl
  | cons a us ih =>
    rw [List.cons_append]
    by_cases ha : a ∈ us
    · rw [List.dedup_cons_of_mem ha, List.dedup_cons_of_mem (by simp [ha]), ih]
    · rw [List.dedup_cons_of_notMem ha]
      by_cases hk : a = key
      · rw [List.dedup_cons_of_mem (by simp [hk]), ih, hk]
        simp
      · rw [List.dedup_cons_of_notMem (by simp [ha, hk]), ih]
        simp [hk]

/-- One key taken out makes room for no more than one other. -/
theorem take_filter_take {keys : List String} (h : keys.Nodup) (key : String) (n : ℕ) :
    ((keys.take (n + 1)).filter (· ≠ key)).take n = (keys.filter (· ≠ key)).take n := by
  induction keys generalizing n with
  | nil => rfl
  | cons a keys ih =>
    obtain ⟨ha, hk⟩ := List.nodup_cons.1 h
    rw [List.take_succ_cons]
    by_cases hak : a = key
    · subst hak
      have hall : ∀ xs ⊆ keys, xs.filter (· ≠ a) = xs := by
        intro xs hxs
        have hne : ∀ x ∈ xs, id x ≠ a := by
          intro x hx he
          exact ha (he ▸ hxs hx)
        exact filter_ne_eq_self hne
      have hfilter : ∀ xs, (a :: xs).filter (· ≠ a) = xs.filter (· ≠ a) := by
        intro xs
        simp
      rw [hfilter, hfilter, hall _ (List.take_subset n keys), hall _ (List.Subset.refl keys),
        List.take_take, Nat.min_self]
    · have hfilter : ∀ xs, (a :: xs).filter (· ≠ key) = a :: xs.filter (· ≠ key) := by
        intro xs
        simp [hak]
      rw [hfilter, hfilter]
      cases n with
      | zero => rfl
      | succ n => rw [List.take_succ_cons, List.take_succ_cons, ih hk]

theorem ofUses_eq (capacity : Option ℕ) (us : List String) :
    ofUses capacity us = atMost capacity us.dedup.reverse := by
  induction us using List.reverseRecOn with
  | nil => cases capacity <;> simp [ofUses, atMost]
  | append_singleton us key ih =>
    rw [ofUses_concat, ih, use_eq, dedup_concat, List.reverse_concat, ← List.filter_reverse]
    have hd : us.dedup.reverse.Nodup := List.nodup_reverse.2 (List.nodup_dedup us)
    cases capacity with
    | none => rfl
    | some n =>
      cases n with
      | zero => rfl
      | succ n => exact congrArg (key :: ·) (take_filter_take hd key n)

theorem nodup_ofUses (capacity : Option ℕ) (us : List String) : (ofUses capacity us).Nodup := by
  rw [ofUses_eq]
  exact (List.nodup_reverse.2 (List.nodup_dedup us)).sublist (atMost_sublist capacity _)

/-- What was used before some other keys is among the first elements just when there are
fewer of the others than there is room for. -/
theorem mem_atMost_append_cons_iff {capacity : Option ℕ} {xs ys : List String} {key : String}
    (h : key ∉ xs) :
    key ∈ atMost capacity (xs ++ key :: ys) ↔ ∀ n, capacity = some n → xs.length < n := by
  cases capacity with
  | none => simp [atMost]
  | some n =>
    have hxs : key ∉ xs.take n := fun hmem => h (List.mem_of_mem_take hmem)
    simp only [atMost, List.take_append, List.mem_append, hxs, false_or, Option.some.injEq,
      forall_eq']
    by_cases hlt : xs.length < n
    · obtain ⟨m, hm⟩ : ∃ m, n - xs.length = m + 1 := Nat.exists_eq_succ_of_ne_zero (by omega)
      simp [hm, hlt]
    · have hzero : n - xs.length = 0 := by omega
      simp [hzero, hlt]

/-- A key stays until as many others have been used since as the bound allows. -/
theorem mem_ofUses_iff {capacity : Option ℕ} {us vs : List String} {key : String}
    (h : key ∉ vs) :
    key ∈ ofUses capacity (us ++ key :: vs) ↔
      ∀ n, capacity = some n → vs.dedup.length < n := by
  obtain ⟨xs, hxs⟩ : (key :: vs).dedup <:+ (us ++ key :: vs).dedup := by
    rw [List.dedup_append]
    exact List.suffix_union_right us _
  rw [List.dedup_cons_of_notMem h] at hxs
  have hkey : key ∉ vs.dedup.reverse := by simpa using h
  rw [ofUses_eq, ← hxs, List.reverse_append, List.reverse_cons, List.append_assoc,
    List.singleton_append, mem_atMost_append_cons_iff hkey, List.length_reverse]

end BibTemplate.Cache.Recency

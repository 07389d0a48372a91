import BibTemplate.Proofs.Value.Parts
import BibTemplate.Value.Document
import Mathlib.Data.List.Forall2
import Mathlib.Data.List.Induction
import Mathlib.Data.List.Nodup

/-!
# Documents

A document has each key of an object once, in the place where it occurs first and with the
value that it has last. A value without repeated keys and without doubles is its own
document.
-/
namespace BibTemplate.Value

variable {v w : Value} {ms kept : Members} {key : String}

namespace Members

theorem keys_set (ms : Members) (key : String) (v : Value) :
    (ms.set key v).map Prod.fst =
      if key ∈ ms.map Prod.fst then ms.map Prod.fst else ms.map Prod.fst ++ [key] := by
  induction ms with
  | nil => rfl
  | cons m ms ih =>
    by_cases hm : m.1 = key
    · simp [set, hm]
    · have hne : key ≠ m.1 := Ne.symm hm
      rw [set, if_neg hm, List.map_cons, ih]
      split <;> simp_all

theorem set_of_notMem (h : key ∉ ms.map Prod.fst) (v : Value) :
    ms.set key v = ms ++ [(key, v)] := by
  induction ms with
  | nil => rfl
  | cons m ms ih =>
    rw [List.map_cons, List.mem_cons, not_or] at h
    rw [set, if_neg (Ne.symm h.1), ih h.2, List.cons_append]

theorem mem_of_mem_set {m : String × Value} (h : m ∈ ms.set key v) : m ∈ ms ∨ m = (key, v) := by
  induction ms with
  | nil => exact .inr (List.mem_singleton.1 h)
  | cons n ms ih =>
    rw [set] at h
    split at h
    · rcases List.mem_cons.1 h with rfl | h
      · exact .inr rfl
      · exact .inl (List.mem_cons_of_mem _ h)
    · rcases List.mem_cons.1 h with rfl | h
      · exact .inl List.mem_cons_self
      · exact (ih h).imp_left (List.mem_cons_of_mem _)

theorem nodup_keys_set (h : (ms.map Prod.fst).Nodup) (key : String) (v : Value) :
    ((ms.set key v).map Prod.fst).Nodup := by
  rw [keys_set]
  split
  · exact h
  · rename_i hk
    exact List.nodup_append.2 ⟨h, List.nodup_singleton key, by
      intro a ha b hb hab
      exact hk (List.mem_singleton.1 hb ▸ hab ▸ ha)⟩

theorem get?_eq_some_of_mem {m : String × Value} (hd : (ms.map Prod.fst).Nodup) (h : m ∈ ms) :
    ms.get? m.1 = some m.2 := by
  induction ms with
  | nil => cases h
  | cons n ms ih =>
    rw [List.map_cons, List.nodup_cons] at hd
    rcases List.mem_cons.1 h with rfl | h
    · simp [get?]
    · have hne : n.1 ≠ m.1 := fun he => hd.1 (he ▸ List.mem_map_of_mem h)
      have hrest := ih hd.2 h
      rw [get?] at hrest ⊢
      rw [List.find?_cons_of_neg (by simpa using hne), hrest]

end Members

theorem eraseDups_concat (ks : List String) (k : String) :
    (ks ++ [k]).eraseDups = if k ∈ ks.eraseDups then ks.eraseDups else ks.eraseDups ++ [k] := by
  rw [List.eraseDups_append]
  split <;> simp_all [List.mem_eraseDups, List.removeAll, List.eraseDups_cons]

theorem documentMembers_concat (kept ms : Members) (m : String × Value) :
    documentMembers kept (ms ++ [m]) = (documentMembers kept ms).set m.1 m.2.document := by
  rw [documentMembers_eq_foldl, List.foldl_concat, ← documentMembers_eq_foldl]

theorem keys_documentMembers (ms : Members) :
    (documentMembers [] ms).map Prod.fst = (ms.map Prod.fst).eraseDups := by
  induction ms using List.reverseRecOn with
  | nil => rfl
  | append_singleton ms m ih =>
    rw [documentMembers_concat, Members.keys_set, ih, List.map_append, List.map_singleton,
      eraseDups_concat]

theorem nodup_keys_documentMembers (ms : Members) :
    ((documentMembers [] ms).map Prod.fst).Nodup := by
  induction ms using List.reverseRecOn with
  | nil => exact List.nodup_nil
  | append_singleton ms m ih =>
    rw [documentMembers_concat]
    exact Members.nodup_keys_set ih _ _

/-- The value of a key in a document comes from the last member with the key. -/
theorem get?_documentMembers (ms : Members) (key : String) :
    (documentMembers [] ms).get? key = (Members.get? ms.reverse key).map document := by
  induction ms using List.reverseRecOn with
  | nil => rfl
  | append_singleton ms m ih =>
    rw [documentMembers_concat, List.reverse_append]
    by_cases h : m.1 = key
    · subst h
      rw [Members.get?_set_self]
      simp [Members.get?]
    · rw [Members.get?_set_of_ne _ _ (Ne.symm h), ih]
      simp [Members.get?, h]

theorem mem_documentMembers {m : String × Value} (h : m ∈ documentMembers [] ms) :
    ∃ n ∈ ms, m.2 = n.2.document := by
  induction ms using List.reverseRecOn with
  | nil => cases h
  | append_singleton ms n ih =>
    rw [documentMembers_concat] at h
    rcases Members.mem_of_mem_set h with h | rfl
    · obtain ⟨n', hn, he⟩ := ih h
      exact ⟨n', List.mem_append_left _ hn, he⟩
    · exact ⟨n, List.mem_append_right _ (List.mem_singleton_self n), rfl⟩

theorem documentMembers_eq_append (h : ((kept ++ ms).map Prod.fst).Nodup)
    (hms : ∀ m ∈ ms, m.2.document = m.2) : documentMembers kept ms = kept ++ ms := by
  induction ms generalizing kept with
  | nil => rw [documentMembers, List.append_nil]
  | cons m ms ih =>
    obtain ⟨key, v⟩ := m
    rw [List.forall_mem_cons] at hms
    have hnew : key ∉ kept.map Prod.fst := by
      rw [List.map_append, List.nodup_append] at h
      exact fun hk => h.2.2 key hk key (by simp) rfl
    rw [documentMembers, Members.set_of_notMem hnew, hms.1, ih (by simpa using h) hms.2,
      List.append_assoc, List.singleton_append]

theorem document_eq_self (hf : v.FloatFree) (hd : v.DistinctKeys) : v.document = v := by
  induction v using Value.induction with
  | list items ih =>
    rw [floatFree_list] at hf
    rw [distinctKeys_list] at hd
    have hitems : items.map document = items.map id :=
      List.map_congr_left fun v hv => ih v hv (hf v hv) (hd v hv)
    rw [document, documentItems_eq_map, hitems, List.map_id]
  | object ms ih =>
    rw [floatFree_object] at hf
    rw [distinctKeys_object] at hd
    have hms : documentMembers [] ms = [] ++ ms :=
      documentMembers_eq_append hd.1 fun m hm => ih m hm (hf m hm) (hd.2 m hm)
    rw [document, hms, List.nil_append]
  | float x => exact absurd hf (not_floatFree_float x)
  | _ => rfl

theorem floatFree_document (h : v.FloatFree) : v.document.FloatFree := by
  induction v using Value.induction with
  | list items ih =>
    rw [floatFree_list] at h
    rw [document, documentItems_eq_map, floatFree_list, List.forall_mem_map]
    exact fun v hv => ih v hv (h v hv)
  | object ms ih =>
    rw [floatFree_object] at h
    rw [document, floatFree_object]
    intro m hm
    obtain ⟨n, hn, he⟩ := mem_documentMembers hm
    exact he ▸ ih n hn (h n hn)
  | float x => exact absurd h (not_floatFree_float x)
  | _ => exact h

theorem depth_document_le {n : ℕ} (h : v.depth ≤ n) : v.document.depth ≤ n := by
  induction v using Value.induction generalizing n with
  | list items ih =>
    rw [depth_list_le] at h
    rw [document, documentItems_eq_map, depth_list_le, List.forall_mem_map]
    exact ⟨h.1, fun v hv => Nat.lt_of_le_of_lt (ih v hv (Nat.le_refl _)) (h.2 v hv)⟩
  | object ms ih =>
    rw [depth_object_le] at h
    rw [document, depth_object_le]
    refine ⟨h.1, ?_⟩
    intro m hm
    obtain ⟨m', hm', he⟩ := mem_documentMembers hm
    exact he ▸ Nat.lt_of_le_of_lt (ih m' hm' (Nat.le_refl _)) (h.2 m' hm')
  | float x =>
    rw [document]
    split <;> exact h
  | _ => exact h

theorem distinctKeys_document (v : Value) : v.document.DistinctKeys := by
  have hscalar : ∀ w : Value, (∀ ms, ¬ Within (.object ms) w) → w.DistinctKeys :=
    fun w hw ms hms => absurd hms (hw ms)
  induction v using Value.induction with
  | list items ih =>
    rw [document, documentItems_eq_map, distinctKeys_list, List.forall_mem_map]
    exact ih
  | object ms ih =>
    rw [document, distinctKeys_object]
    refine ⟨nodup_keys_documentMembers ms, ?_⟩
    intro m hm
    obtain ⟨n, hn, he⟩ := mem_documentMembers hm
    exact he ▸ ih n hn
  | float x =>
    rw [document]
    split <;> exact hscalar _ (fun ms hms => by cases hms)
  | _ => exact hscalar _ (fun ms hms => by cases hms)

theorem document_document (h : v.FloatFree) : v.document.document = v.document :=
  document_eq_self (floatFree_document h) (distinctKeys_document v)

/-- The value `w` is `v` with each key of an object once: the keys stand in the order in which
they occur first, and each has the value that it has last. -/
inductive Merges : Value → Value → Prop
  | null : Merges .null .null
  | bool (b : Bool) : Merges (.bool b) (.bool b)
  | integer (n : Int64) : Merges (.integer n) (.integer n)
  | string (s : String) : Merges (.string s) (.string s)
  | list {items kept : List Value} :
      List.Forall₂ Merges items kept → Merges (.list items) (.list kept)
  | object {ms kept : Members} :
      kept.map Prod.fst = (ms.map Prod.fst).eraseDups →
      (∀ m ∈ kept, ∀ v, Members.get? ms.reverse m.1 = some v → Merges v m.2) →
        Merges (.object ms) (.object kept)

theorem merges_document (h : v.FloatFree) : Merges v v.document := by
  induction v using Value.induction with
  | null => exact .null
  | bool b => exact .bool b
  | integer n => exact .integer n
  | string s => exact .string s
  | float x => exact absurd h (not_floatFree_float x)
  | list items ih =>
    rw [floatFree_list] at h
    rw [document, documentItems_eq_map]
    refine .list ?_
    rw [List.forall₂_map_right_iff, List.forall₂_same]
    exact fun v hv => ih v hv (h v hv)
  | object ms ih =>
    rw [floatFree_object] at h
    rw [document]
    refine .object (keys_documentMembers ms) ?_
    intro m hm v hv
    have hget := Members.get?_eq_some_of_mem (nodup_keys_documentMembers ms) hm
    rw [get?_documentMembers, hv, Option.map_some, Option.some.injEq] at hget
    obtain ⟨n, hn, rfl⟩ := Option.map_eq_some_iff.1 hv
    have hmem := List.mem_reverse.1 (List.mem_of_find?_eq_some hn)
    exact hget ▸ ih n hmem (h n hmem)

end BibTemplate.Value

import BibTemplate.Proofs.Cache.Eviction

/-!
# A store as a table

What a store holds for each text, whatever its time stamps and the order of its entries.
A look-up changes nothing in it. An insertion adds one result, unless one is held
already, and may drop others to make room, but never changes one that stays.
-/
namespace BibTemplate.Cache.Store

/-- One entry for each text, with the template of that text, and no more of them than the
bound allows. -/
structure Sound (s : Store) : Prop where
  positive : s.capacity ≠ some 0
  keys : (s.entries.map Entry.source).Nodup
  parsed : ∀ e ∈ s.entries, Template.parse e.source = .ok e.held.template
  room : ∀ n, s.capacity = some n → s.size ≤ n

variable {s : Store} {source k : String} {i j : Instance}

theorem find?_eq_some_iff (hd : (s.entries.map Entry.source).Nodup) :
    s.find? k = some i ↔ ∃ e ∈ s.entries, e.source = k ∧ e.held = i := by
  constructor
  · intro h
    obtain ⟨e, he, rfl⟩ := Option.map_eq_some_iff.1 h
    exact ⟨e, List.mem_of_find?_eq_some he, by simpa using List.find?_some he, rfl⟩
  · intro h
    obtain ⟨e, he, rfl, rfl⟩ := h
    exact find?_eq_some_of_mem hd he

theorem mem_keys_iff : k ∈ s.entries.map Entry.source ↔ ∃ i, s.find? k = some i := by
  rw [← Option.ne_none_iff_exists', ne_eq, find?_eq_none_iff]
  simp

theorem Sound.parse_of_find? (h : s.Sound) (hi : s.find? k = some i) :
    Template.parse k = .ok i.template := by
  obtain ⟨e, he, rfl, rfl⟩ := (find?_eq_some_iff h.keys).1 hi
  exact h.parsed e he

theorem Sound.reorder {es : List Entry} (h : s.Sound) (hp : s.entries.Perm es) :
    Sound { s with entries := es } := by
  refine ⟨h.positive, (hp.map _).nodup_iff.1 h.keys, ?_, ?_⟩
  · intro e he
    exact h.parsed e (hp.symm.subset he)
  · intro n hn
    have hle := h.room n hn
    rwa [size, hp.length_eq] at hle

theorem Sound.clear (h : s.Sound) : s.clear.Sound := by
  refine ⟨h.positive, ?_, ?_, ?_⟩ <;> simp [Store.clear, size]

/-- The same entries and perhaps more hold the same results and perhaps more. -/
theorem find?_of_subset {t : Store} (hs : (s.entries.map Entry.source).Nodup)
    (ht : (t.entries.map Entry.source).Nodup) (h : t.entries ⊆ s.entries)
    (hi : t.find? k = some i) : s.find? k = some i := by
  obtain ⟨e, he, hk⟩ := (find?_eq_some_iff ht).1 hi
  exact (find?_eq_some_iff hs).2 ⟨e, h he, hk⟩

theorem find?_of_perm {es : List Entry} (hs : (s.entries.map Entry.source).Nodup)
    (h : s.entries.Perm es) : find? { s with entries := es } k = s.find? k := by
  have ht : (es.map Entry.source).Nodup := (h.map Entry.source).nodup_iff.1 hs
  cases hk : s.find? k with
  | some i => exact find?_of_subset ht hs h.subset hk
  | none =>
    have hne := find?_eq_none_iff.1 hk
    refine find?_eq_none_iff.2 ?_
    intro e he
    exact hne e (h.symm.subset he)

theorem source_touch (now : ℕ) (e : Entry) : (touch source now e).source = e.source := by
  unfold touch
  split <;> rfl

theorem held_touch (now : ℕ) (e : Entry) : (touch source now e).held = e.held := by
  unfold touch
  split <;> rfl

/-- A look-up changes time stamps only. -/
theorem find?_lookup : (s.lookup source).2.find? k = s.find? k := by
  have hcomp : (fun e : Entry => decide (e.source = k)) ∘ touch source (s.clock + 1) =
      fun e => decide (e.source = k) := by
    funext e
    simp only [Function.comp_apply, source_touch]
  rw [lookup_eq]
  simp only [find?, List.find?_map, hcomp, Option.map_map]
  congr 1
  funext e
  exact held_touch _ e

theorem Sound.lookup (h : s.Sound) (source : String) : (s.lookup source).2.Sound := by
  rw [lookup_eq]
  refine ⟨h.positive, ?_, ?_, ?_⟩
  · rw [List.map_map]
    exact (List.map_congr_left fun e _ => source_touch _ e) ▸ h.keys
  · intro e he
    obtain ⟨f, hf, rfl⟩ := List.mem_map.1 he
    rw [source_touch, held_touch]
    exact h.parsed f hf
  · intro n hn
    simpa [size] using h.room n hn

theorem evict_sublist (es : List Entry) : (evict es).Sublist es := by
  unfold evict
  split
  · exact List.nil_sublist es
  · exact List.filter_sublist

theorem length_evict_le (es : List Entry) : (evict es).length ≤ es.length - 1 := by
  unfold evict
  split
  · simp
  · rename_i o ho
    have hmem := (oldest?_eq_some ho).1
    have hlt : (es.filter fun e => e.source ≠ o.source).length < es.length :=
      List.length_filter_lt_length_iff_exists.2 ⟨o, hmem, by simp⟩
    omega

theorem repeat_evict (n : ℕ) (es : List Entry) :
    (Nat.repeat evict n es).Sublist es ∧ (Nat.repeat evict n es).length ≤ es.length - n := by
  induction n with
  | zero => exact ⟨.refl es, Nat.le_refl _⟩
  | succ n ih =>
    rw [Nat.repeat]
    have hle := length_evict_le (Nat.repeat evict n es)
    exact ⟨(evict_sublist _).trans ih.1, by omega⟩

theorem makeRoom_sublist (capacity : Option ℕ) (es : List Entry) :
    (makeRoom capacity es).Sublist es := by
  cases capacity with
  | none => exact .refl es
  | some n => exact (repeat_evict _ es).1

theorem length_makeRoom_lt {n : ℕ} (hn : n ≠ 0) (es : List Entry) :
    (makeRoom (some n) es).length < n := by
  have hle := (repeat_evict (es.length + 1 - n) es).2
  rw [makeRoom]
  omega

theorem insert_of_find?_eq_some (h : s.find? source = some i) (parsed : Instance) :
    s.insert source parsed = (i, (s.lookup source).2) := by
  rw [insert, lookup_eq, h]

theorem Sound.insert (h : s.Sound) (hi : Template.parse source = .ok i.template) :
    (s.insert source i).2.Sound := by
  cases hf : s.find? source with
  | some j =>
    rw [insert_of_find?_eq_some hf]
    exact h.lookup source
  | none =>
    have hne := find?_eq_none_iff.1 hf
    have hsub := makeRoom_sublist s.capacity s.entries
    rw [insert_of_forall_ne hne]
    refine ⟨h.positive, ?_, ?_, ?_⟩
    · refine List.nodup_cons.2 ⟨?_, h.keys.sublist (hsub.map _)⟩
      intro hmem
      obtain ⟨e, he, hsource⟩ := List.mem_map.1 hmem
      exact hne e (hsub.subset he) hsource
    · intro e he
      rcases List.mem_cons.1 he with rfl | he
      · exact hi
      · exact h.parsed e (hsub.subset he)
    · intro n hn
      have hlt := length_makeRoom_lt (n := n) (fun hz => h.positive (hz ▸ hn)) s.entries
      rw [← hn] at hlt
      exact hlt

/-- The result that an insertion returns is the one that is held from then on. -/
theorem find?_insert_self (s : Store) (source : String) (i : Instance) :
    (s.insert source i).2.find? source = some (s.insert source i).1 := by
  cases hf : s.find? source with
  | some j => rw [insert_of_find?_eq_some hf, find?_lookup, hf]
  | none =>
    rw [insert_of_forall_ne (find?_eq_none_iff.1 hf)]
    simp [find?]

/-- Besides the result it returns, an insertion leaves only what was held before. -/
theorem find?_insert_cases (h : s.Sound) (hi : Template.parse source = .ok i.template)
    (hk : (s.insert source i).2.find? k = some j) :
    s.find? k = some j ∨ source = k ∧ s.find? k = none ∧ (s.insert source i).1 = j := by
  cases hf : s.find? source with
  | some held =>
    rw [insert_of_find?_eq_some hf, find?_lookup] at hk
    exact .inl hk
  | none =>
    have hsound := h.insert hi
    rw [insert_of_forall_ne (find?_eq_none_iff.1 hf)] at hk hsound ⊢
    obtain ⟨e, he, rfl, rfl⟩ := (find?_eq_some_iff hsound.keys).1 hk
    rcases List.mem_cons.1 he with rfl | he
    · exact .inr ⟨rfl, hf, rfl⟩
    · exact .inl (find?_eq_some_of_mem h.keys ((makeRoom_sublist _ _).subset he))

/-- Without a bound nothing is ever dropped. -/
theorem find?_insert_of_unbounded (h : s.capacity = none) (hk : s.find? k = some j)
    (i : Instance) : (s.insert source i).2.find? k = some j := by
  cases hf : s.find? source with
  | some held => rwa [insert_of_find?_eq_some hf, find?_lookup]
  | none =>
    have hne : source ≠ k := by
      intro he
      rw [he, hk] at hf
      cases hf
    rw [insert_of_forall_ne (find?_eq_none_iff.1 hf), h]
    simpa [find?, makeRoom, hne] using hk

theorem capacity_insert (s : Store) (source : String) (i : Instance) :
    (s.insert source i).2.capacity = s.capacity := by
  cases hf : s.find? source with
  | some j =>
    rw [insert_of_find?_eq_some hf]
    rfl
  | none => rw [insert_of_forall_ne (find?_eq_none_iff.1 hf)]

end BibTemplate.Cache.Store

import BibTemplate.Cache.Store
import BibTemplate.Proofs.Cache.Recency

/-!
# Entries ranked by their time stamps

The time stamps of a store rank its entries, whatever order they stand in. A look-up
that finds its entry moves it to the first rank, and an eviction drops the entry of the
last one.
-/
namespace BibTemplate.Cache

/-- The entries from the last used on, with time stamps up to that of the clock. -/
structure Ranked (clock : ℕ) (es : List Entry) : Prop where
  sorted : es.Pairwise fun e f => f.lastUsed < e.lastUsed
  bounded : ∀ e ∈ es, e.lastUsed ≤ clock

namespace Ranked

variable {clock later : ℕ} {es fs : List Entry}

theorem mono (h : Ranked clock es) (hl : clock ≤ later) : Ranked later es :=
  ⟨h.sorted, fun e he => Nat.le_trans (h.bounded e he) hl⟩

theorem sublist (h : Ranked clock es) (hs : fs.Sublist es) : Ranked clock fs :=
  ⟨h.sorted.sublist hs, fun e he => h.bounded e (hs.subset he)⟩

theorem cons (h : Ranked clock es) {e : Entry} (he : clock < e.lastUsed)
    (hl : e.lastUsed ≤ later) : Ranked later (e :: es) := by
  refine ⟨List.pairwise_cons.2 ⟨?_, h.sorted⟩, ?_⟩
  · intro f hf
    have hle := h.bounded f hf
    omega
  · intro f hf
    rcases List.mem_cons.1 hf with rfl | hf
    · exact hl
    · have hle := h.bounded f hf
      omega

/-- Time stamps decide the ranking. -/
theorem eq_of_perm (h : Ranked clock es) (hs : fs.Pairwise fun e f => f.lastUsed ≤ e.lastUsed)
    (hp : fs.Perm es) : fs = es := by
  have hweak : es.Pairwise fun e f => f.lastUsed ≤ e.lastUsed := h.sorted.imp Nat.le_of_lt
  refine List.Perm.eq_of_pairwise ?_ hs hweak hp
  intro e f he hf hle hge
  have hnd : (es.map Entry.lastUsed).Nodup := by
    refine List.pairwise_map.2 (h.sorted.imp ?_)
    intro e f hlt
    omega
  exact List.inj_on_of_nodup_map hnd (hp.subset he) hf (Nat.le_antisymm hge hle)

end Ranked

namespace Store

/-- What a look-up of `source` at the time `now` does to an entry. -/
def touch (source : String) (now : ℕ) (e : Entry) : Entry :=
  if e.source = source then { e with lastUsed := now } else e

theorem lookup_eq (s : Store) (source : String) :
    s.lookup source = (s.find? source, { s with
      entries := s.entries.map (touch source (s.clock + 1)), clock := s.clock + 1 }) := rfl

theorem find?_eq_none_iff {s : Store} {source : String} :
    s.find? source = none ↔ ∀ e ∈ s.entries, e.source ≠ source := by
  simp [find?]

theorem find?_eq_some_of_mem {s : Store} (hd : (s.entries.map Entry.source).Nodup) {e : Entry}
    (he : e ∈ s.entries) : s.find? e.source = some e.held := by
  obtain ⟨capacity, es, clock⟩ := s
  simp only [find?] at *
  cases hf : es.find? fun f => f.source = e.source with
  | none =>
    have hne := List.find?_eq_none.1 hf e he
    simp at hne
  | some f =>
    have hs : f.source = e.source := by simpa using List.find?_some hf
    have hfe : f = e := List.inj_on_of_nodup_map hd (List.mem_of_find?_eq_some hf) he hs
    rw [hfe, Option.map_some]

theorem map_touch_of_forall_ne {es : List Entry} {source : String}
    (h : ∀ e ∈ es, e.source ≠ source) (now : ℕ) : es.map (touch source now) = es := by
  refine (List.map_congr_left ?_).trans (List.map_id es)
  intro e he
  exact if_neg (h e he)

theorem lookup_of_forall_ne {s : Store} {source : String}
    (h : ∀ e ∈ s.entries, e.source ≠ source) :
    s.lookup source = (none, { s with clock := s.clock + 1 }) := by
  rw [lookup_eq, find?_eq_none_iff.2 h, map_touch_of_forall_ne h]

theorem map_touch_perm {es : List Entry} (hd : (es.map Entry.source).Nodup) {e : Entry}
    (he : e ∈ es) (now : ℕ) :
    (es.map (touch e.source now)).Perm
      ({ e with lastUsed := now } :: es.filter fun f => f.source ≠ e.source) := by
  induction es with
  | nil => simp at he
  | cons f es ih =>
    obtain ⟨hf, hd⟩ := List.nodup_cons.1 hd
    rw [List.map_cons]
    by_cases hfe : f.source = e.source
    · have hne : ∀ g ∈ es, g.source ≠ e.source := by
        intro g hg hge
        exact hf (hfe ▸ hge ▸ List.mem_map_of_mem hg)
      obtain rfl : e = f := by
        rcases List.mem_cons.1 he with rfl | he
        · rfl
        · exact absurd rfl (hne e he)
      rw [map_touch_of_forall_ne hne, List.filter_cons_of_neg (by simp),
        Recency.filter_ne_eq_self hne, touch, if_pos rfl]
    · have hmem : e ∈ es := by
        rcases List.mem_cons.1 he with rfl | he
        · exact absurd rfl hfe
        · exact he
      rw [touch, if_neg hfe, List.filter_cons_of_pos (by simpa using hfe)]
      exact ((ih hd hmem).cons f).trans (.swap ..)

theorem oldest?_eq_none_iff {es : List Entry} : oldest? es = none ↔ es = [] := by
  cases es with
  | nil => simp [oldest?]
  | cons e es =>
    simp only [oldest?, reduceCtorEq, iff_false]
    split
    · simp
    · split <;> simp

theorem oldest?_eq_some {es : List Entry} {o : Entry} (h : oldest? es = some o) :
    o ∈ es ∧ ∀ e ∈ es, o.lastUsed ≤ e.lastUsed := by
  induction es generalizing o with
  | nil => simp [oldest?] at h
  | cons e es ih =>
    rw [oldest?] at h
    split at h
    · rename_i hn
      obtain rfl := oldest?_eq_none_iff.1 hn
      obtain rfl : e = o := by simpa using h
      simp
    · rename_i f hf
      obtain ⟨hmem, hle⟩ := ih hf
      split at h
      · rename_i hef
        obtain rfl : e = o := by simpa using h
        refine ⟨List.mem_cons_self, ?_⟩
        intro g hg
        rcases List.mem_cons.1 hg with rfl | hg
        · exact Nat.le_refl _
        · exact Nat.le_trans hef (hle g hg)
      · rename_i hef
        obtain rfl : f = o := by simpa using h
        refine ⟨List.mem_cons_of_mem e hmem, ?_⟩
        intro g hg
        rcases List.mem_cons.1 hg with rfl | hg
        · omega
        · exact hle g hg

/-- The entry of the last rank is dropped. -/
theorem evict_perm {clock : ℕ} {es fs : List Entry} {l : Entry} (hr : Ranked clock (fs ++ [l]))
    (hd : ((fs ++ [l]).map Entry.source).Nodup) (hp : es.Perm (fs ++ [l])) :
    (evict es).Perm fs := by
  have hlast : ∀ e ∈ fs, l.lastUsed < e.lastUsed := by
    intro e he
    exact (List.pairwise_append.1 hr.sorted).2.2 e he l (by simp)
  have hfilter : (fs ++ [l]).filter (fun e => e.source ≠ l.source) = fs := by
    rw [List.map_append, List.nodup_append] at hd
    rw [List.filter_append, List.filter_cons_of_neg (by simp), List.filter_nil, List.append_nil]
    refine Recency.filter_ne_eq_self ?_
    intro e he
    exact hd.2.2 e.source (List.mem_map_of_mem he) l.source (by simp)
  unfold evict
  cases ho : oldest? es with
  | none =>
    have hnil := oldest?_eq_none_iff.1 ho
    rw [hnil] at hp
    exact absurd hp.length_eq (by simp)
  | some o =>
    obtain ⟨hmem, hle⟩ := oldest?_eq_some ho
    have hol : o = l := by
      rcases List.mem_append.1 (hp.subset hmem) with h | h
      · have hlt := hlast o h
        have hge := hle l (hp.symm.subset (by simp))
        omega
      · simpa using h
    rw [hol]
    exact hfilter ▸ hp.filter _

theorem insert_of_forall_ne {s : Store} {source : String}
    (h : ∀ e ∈ s.entries, e.source ≠ source) (parsed : Instance) :
    s.insert source parsed = (parsed, { s with
      entries := ⟨source, parsed, s.clock + 2⟩ :: makeRoom s.capacity s.entries
      clock := s.clock + 2 }) := by
  rw [insert, lookup_of_forall_ne h]

/-- One more entry fits when the entry of the last rank is dropped, if none was free. -/
theorem cons_makeRoom_perm {clock : ℕ} {capacity : Option ℕ} {es fs : List Entry}
    (hr : Ranked clock fs) (hd : (fs.map Entry.source).Nodup) (hp : es.Perm fs)
    (hpos : capacity ≠ some 0) (hle : ∀ n, capacity = some n → fs.length ≤ n) (e : Entry) :
    (e :: makeRoom capacity es).Perm (Recency.atMost capacity (e :: fs)) := by
  cases capacity with
  | none => exact hp.cons e
  | some n =>
    have hlen := hle n rfl
    obtain ⟨m, rfl⟩ : ∃ m, n = m + 1 := Nat.exists_eq_succ_of_ne_zero fun h => hpos (h ▸ rfl)
    have hes := hp.length_eq
    simp only [makeRoom, Recency.atMost, List.take_succ_cons]
    refine List.Perm.cons e ?_
    by_cases hfull : fs.length = m + 1
    · rcases List.eq_nil_or_concat fs with rfl | ⟨gs, l, rfl⟩
      · simp at hfull
      · have hgs : gs.length = m := by simpa using hfull
        have hone : es.length + 1 - (m + 1) = 1 := by omega
        rw [hone, List.concat_eq_append, List.take_left' hgs]
        rw [List.concat_eq_append] at hr hd hp
        exact evict_perm hr hd hp
    · have hnone : es.length + 1 - (m + 1) = 0 := by omega
      rw [hnone, List.take_of_length_le (by omega)]
      exact hp

end Store

end BibTemplate.Cache

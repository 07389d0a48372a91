import BibTemplate.Proofs.Cache.Eviction
import BibTemplate.Proofs.Cache.Lru

/-!
# The cache is a textbook cache

Ranked by their time stamps, the entries of a cache are the list that the textbook cache
keeps. Each call preserves this and gives the same response, in whatever order the
entries stand.
-/
namespace BibTemplate.Cache

def Entry.pair (e : Entry) : String × Instance := (e.source, e.held)

/-- The cache holds what the textbook cache holds, with time stamps for its order. -/
structure Represents (c : Cache) (s : Lru) : Prop where
  capacity : c.store.capacity = s.capacity
  readings : c.readings = s.readings
  ranking : ∃ es, c.store.entries.Perm es ∧ Ranked c.store.clock es ∧ es.map Entry.pair = s.held

theorem map_source_of_pair {es : List Entry} {s : Lru} (h : es.map Entry.pair = s.held) :
    es.map Entry.source = s.held.map Prod.fst := by
  rw [← h, List.map_map]
  rfl

theorem filter_pair (es : List Entry) (source : String) :
    (es.map Entry.pair).filter (fun p => p.1 ≠ source) =
      (es.filter fun e => e.source ≠ source).map Entry.pair := by
  rw [List.filter_map]
  rfl

/-- A result that is held already brings nothing that would have to fall off. -/
theorem Lru.held_use_of_mem {s : Lru} {us : List String} (h : s.Follows us) {source : String}
    {i : Instance} (hi : (source, i) ∈ s.held) :
    (s.use source i).held = (source, i) :: s.held.filter fun p => p.1 ≠ source := by
  have hlt : (s.held.filter fun p => p.1 ≠ source).length < s.held.length :=
    List.length_filter_lt_length_iff_exists.2 ⟨_, hi, by simp⟩
  rw [use]
  cases hc : s.capacity with
  | none => rfl
  | some n =>
    have hle := h.length_le hc
    exact List.take_of_length_le (by rw [List.length_cons]; omega)

theorem Represents.fetch_hit {c : Cache} {s : Lru} {us : List String} (h : c.Represents s)
    (hs : s.Follows us) {source : String} {i : Instance} (hi : s.find? source = some i) :
    (c.fetch source).1 = .ok i ∧ (c.fetch source).2.Represents (s.use source i) := by
  obtain ⟨es, hp, hr, hes⟩ := h.ranking
  have hmem := Lru.mem_of_find?_eq_some hi
  have hheld := Lru.held_use_of_mem hs hmem
  have hnd : (es.map Entry.source).Nodup := map_source_of_pair hes ▸ hs.nodup
  have hnd' : (c.store.entries.map Entry.source).Nodup := (hp.map _).nodup_iff.2 hnd
  rw [← hes] at hmem
  obtain ⟨e, he, hpair⟩ := List.mem_map.1 hmem
  obtain ⟨rfl, rfl⟩ : e.source = source ∧ e.held = i := by simpa [Entry.pair] using hpair
  have hfind := Store.find?_eq_some_of_mem hnd' (hp.symm.subset he)
  have hfetch : c.fetch e.source = (.ok e.held, { c with store := { c.store with
      entries := c.store.entries.map (Store.touch e.source (c.store.clock + 1))
      clock := c.store.clock + 1 } }) := by
    rw [fetch, Store.lookup_eq, hfind]
  rw [hfetch]
  refine ⟨rfl, h.capacity, h.readings, ?_⟩
  refine ⟨{ e with lastUsed := c.store.clock + 1 } :: es.filter fun f => f.source ≠ e.source,
    (hp.map _).trans (Store.map_touch_perm hnd he _), ?_, ?_⟩
  · exact (hr.sublist List.filter_sublist).cons (Nat.lt_succ_self _) (Nat.le_refl _)
  · rw [hheld, ← hes, filter_pair]
    rfl

theorem Represents.fetch_miss {c : Cache} {s : Lru} {us : List String} (h : c.Represents s)
    (hs : s.Follows us) {source : String} (hi : s.find? source = none) :
    (c.fetch source).1 = (s.fetch source).1 ∧
      (c.fetch source).2.Represents (s.fetch source).2 := by
  obtain ⟨es, hp, hr, hes⟩ := h.ranking
  have hne : ∀ p ∈ s.held, p.1 ≠ source := Lru.find?_eq_none_iff.1 hi
  have hnees : ∀ e ∈ c.store.entries, e.source ≠ source := by
    intro e he
    exact hne _ (hes ▸ List.mem_map_of_mem (hp.subset he))
  rw [Cache.fetch, Lru.fetch, hi, Store.lookup_of_forall_ne hnees]
  cases hparse : Template.parse source with
  | error e =>
    exact ⟨rfl, h.capacity, h.readings, es, hp, hr.mono (Nat.le_succ _), hes⟩
  | ok t =>
    have hinsert := Store.insert_of_forall_ne
      (s := { c.store with clock := c.store.clock + 1 }) hnees ⟨s.readings, t⟩
    rw [h.readings]
    simp only [hinsert]
    refine ⟨trivial, h.capacity, rfl, ?_⟩
    have hnd : (es.map Entry.source).Nodup := map_source_of_pair hes ▸ hs.nodup
    have hle : ∀ n, c.store.capacity = some n → es.length ≤ n := by
      intro n hn
      have hlen := hs.length_le (h.capacity.symm.trans hn)
      rwa [← hes, List.length_map] at hlen
    have hpos : c.store.capacity ≠ some 0 := h.capacity ▸ hs.positive
    have hroom := Store.cons_makeRoom_perm hr hnd hp hpos hle
      ⟨source, ⟨s.readings, t⟩, c.store.clock + 1 + 2⟩
    refine ⟨_, hroom, ?_, ?_⟩
    · refine Ranked.sublist ?_ (Recency.atMost_sublist _ _)
      exact hr.cons (by simp; omega) (Nat.le_refl _)
    · simp only [Lru.use]
      rw [Recency.map_atMost, List.map_cons, hes, Recency.filter_ne_eq_self hne, h.capacity]
      rfl

theorem Represents.fetch {c : Cache} {s : Lru} {us : List String} (h : c.Represents s)
    (hs : s.Follows us) (source : String) :
    (c.fetch source).1 = (s.fetch source).1 ∧
      (c.fetch source).2.Represents (s.fetch source).2 := by
  cases hi : s.find? source with
  | none => exact h.fetch_miss hs hi
  | some i =>
    have hfetch : s.fetch source = (.ok i, s.use source i) := by
      rw [Lru.fetch, hi]
    rw [hfetch]
    exact h.fetch_hit hs hi

theorem Represents.step {c : Cache} {s : Lru} {us : List String} (h : c.Represents s)
    (hs : s.Follows us) (r : Request) :
    (c.perform r).1 = (s.step r).1 ∧ (c.perform r).2.Represents (s.step r).2 := by
  cases r with
  | fetch source =>
    obtain ⟨hresult, hafter⟩ := h.fetch hs source
    exact ⟨congrArg Response.fetched hresult, hafter⟩
  | render source context options =>
    obtain ⟨hresult, hafter⟩ := h.fetch hs source
    refine ⟨?_, hafter⟩
    simp only [perform, Cache.render, Lru.step, hresult]
  | clear =>
    refine ⟨rfl, h.capacity, h.readings, [], ?_, ⟨.nil, by simp⟩, rfl⟩
    exact .refl _

/-- The same cache with its entries in another order. -/
def Reordered (c d : Cache) : Prop :=
  ∃ es, c.store.entries.Perm es ∧ d = { c with store := { c.store with entries := es } }

/-- A history of calls. Before each call, and after the last one, the entries may come to
stand in any order. -/
inductive Run : Cache → List (Request × Response) → Cache → Prop
  | done {c d : Cache} : c.Reordered d → Run c [] d
  | call {c d e : Cache} {r : Request} {h : List (Request × Response)} :
      c.Reordered d → Run (d.perform r).2 h e → Run c ((r, (d.perform r).1) :: h) e

theorem exists_run (c : Cache) (rs : List Request) :
    ∃ h d, Run c h d ∧ h.map Prod.fst = rs := by
  have hrefl : ∀ c : Cache, c.Reordered c := fun c => ⟨_, .refl _, rfl⟩
  induction rs generalizing c with
  | nil => exact ⟨[], c, .done (hrefl c), rfl⟩
  | cons r rs ih =>
    obtain ⟨h, d, hrun, rfl⟩ := ih (c.perform r).2
    exact ⟨_, d, .call (hrefl c) hrun, rfl⟩

theorem Represents.reorder {c d : Cache} {s : Lru} (h : c.Represents s) (hd : c.Reordered d) :
    d.Represents s := by
  obtain ⟨fs, hfs, rfl⟩ := hd
  obtain ⟨es, hp, hr, hes⟩ := h.ranking
  exact ⟨h.capacity, h.readings, es, hfs.symm.trans hp, hr, hes⟩

theorem Represents.run {c d : Cache} {s : Lru} {us : List String} {h : List (Request × Response)}
    (hc : c.Represents s) (hs : s.Follows us) (hrun : Run c h d) :
    (s.run (h.map Prod.fst)).1 = h ∧ d.Represents (s.run (h.map Prod.fst)).2 := by
  induction hrun generalizing s us with
  | done hd => exact ⟨rfl, hc.reorder hd⟩
  | @call c d e r h hd _ ih =>
    obtain ⟨hresponse, hafter⟩ := (hc.reorder hd).step hs r
    obtain ⟨hrest, hend⟩ := ih hafter (hs.step r)
    refine ⟨?_, hend⟩
    simp only [List.map_cons, Lru.run, hrest, hresponse]

/-- The keys from the last used on, as the time stamps tell. -/
def recency (c : Cache) : List String :=
  (c.store.entries.mergeSort fun e f => f.lastUsed ≤ e.lastUsed).map Entry.source

theorem Represents.recency_eq {c : Cache} {s : Lru} (h : c.Represents s) :
    c.recency = s.held.map Prod.fst := by
  obtain ⟨es, hp, hr, hes⟩ := h.ranking
  have hsorted : (c.store.entries.mergeSort fun e f => f.lastUsed ≤ e.lastUsed).Pairwise
      fun e f => decide (f.lastUsed ≤ e.lastUsed) = true := by
    refine List.pairwise_mergeSort ?_ ?_ _
    · intro e f g hef hfg
      rw [decide_eq_true_eq] at *
      omega
    · intro e f
      rw [Bool.or_eq_true, decide_eq_true_eq, decide_eq_true_eq]
      omega
  have hweak := hsorted.imp fun h => of_decide_eq_true h
  rw [recency, hr.eq_of_perm hweak ((List.mergeSort_perm ..).trans hp), map_source_of_pair hes]

/-- A cache as it is made, with its bound. -/
inductive Fresh : Option ℕ → Cache → Prop
  | unbounded : Fresh none .unbounded
  | bounded (n : ℕ) : Fresh (some (max n 1)) (.bounded n)

theorem Fresh.represents {capacity : Option ℕ} {c : Cache} (h : Fresh capacity c) :
    c.Represents (.empty capacity) ∧ (Lru.empty capacity).Follows [] := by
  have hempty : Ranked 0 [] := ⟨.nil, by simp⟩
  cases h with
  | unbounded => exact ⟨⟨rfl, rfl, [], .refl _, hempty, rfl⟩, Lru.follows_empty (by simp)⟩
  | bounded n =>
    refine ⟨⟨rfl, rfl, [], .refl _, hempty, rfl⟩, Lru.follows_empty ?_⟩
    rw [ne_eq, Option.some.injEq]
    omega

/-- The cache holds the texts that were used last, as many as the bound allows, each with
its own template. -/
structure Remembers (capacity : Option ℕ) (h : List (Request × Response)) (d : Cache) : Prop where
  keys : (d.store.entries.map Entry.source).Perm (Recency.atMost capacity (uses h).dedup.reverse)
  recency : d.recency = Recency.atMost capacity (uses h).dedup.reverse
  size : d.size = capacity.elim (uses h).dedup.length fun n => min n (uses h).dedup.length
  parsed : ∀ e ∈ d.store.entries, Template.parse e.source = .ok e.held.template

theorem Represents.remembers {d : Cache} {s : Lru} {h : List (Request × Response)}
    (hd : d.Represents s) (hs : s.Follows (uses h)) : Remembers s.capacity h d := by
  have hrecency : d.recency = Recency.atMost s.capacity (uses h).dedup.reverse := by
    rw [hd.recency_eq, hs.keys, Recency.ofUses_eq]
  have hkeys : (d.store.entries.map Entry.source).Perm d.recency :=
    ((List.mergeSort_perm ..).map _).symm
  refine ⟨hrecency ▸ hkeys, hrecency, ?_, ?_⟩
  · have hlen := hkeys.length_eq
    rw [List.length_map, hrecency] at hlen
    rw [Cache.size, Store.size, hlen]
    cases s.capacity with
    | none => exact List.length_reverse
    | some n => rw [Recency.atMost, List.length_take, List.length_reverse, Option.elim_some]
  · intro e he
    obtain ⟨es, hp, -, hes⟩ := hd.ranking
    exact hs.parsed e.pair (hes ▸ List.mem_map_of_mem (hp.subset he))

theorem fetch_eq_of_error {c : Cache} {source : String} {e : SyntaxError}
    (h : (c.fetch source).1 = .error e) :
    (c.fetch source).2 = { c with store := { c.store with clock := c.store.clock + 1 } } := by
  cases hfind : c.store.find? source with
  | some i =>
    rw [fetch, Store.lookup_eq, hfind] at h
    cases h
  | none =>
    rw [fetch, Store.lookup_of_forall_ne (Store.find?_eq_none_iff.1 hfind)] at h ⊢
    cases hparse : Template.parse source with
    | error e => rfl
    | ok t =>
      rw [hparse] at h
      cases h

/-- A call that fails moves the clock and nothing else. -/
theorem perform_eq_of_failed {c : Cache} {r : Request} (h : (c.perform r).1.failed) :
    (c.perform r).2 = { c with store := { c.store with clock := c.store.clock + 1 } } := by
  cases r with
  | fetch source =>
    obtain ⟨e, he⟩ := failed_fetched_iff.1 h
    exact fetch_eq_of_error he
  | render source context options =>
    have hfetch : (Response.fetched (c.fetch source).1).failed := failed_rendered_map _ _ ▸ h
    obtain ⟨e, he⟩ := failed_fetched_iff.1 hfetch
    exact fetch_eq_of_error he
  | clear => cases h

/-- Whatever order its entries come to stand in, a cache responds as the textbook cache does
and remembers what was used last. A call that fails moves the clock and nothing else, and no
other call shows whether it was made. -/
theorem refines_lru {capacity : Option ℕ} {c d : Cache} {h : List (Request × Response)}
    (hc : Fresh capacity c) (hrun : Run c h d) :
    ((Lru.empty capacity).run (h.map Prod.fst)).1 = h ∧ Remembers capacity h d ∧
      (∀ r, (d.perform r).1.failed →
        (d.perform r).2 = { d with store := { d.store with clock := d.store.clock + 1 } }) ∧
      ∀ h₁ r x h₂, h = h₁ ++ (r, x) :: h₂ → x.failed → ∀ g e, Run c g e →
        g.map Prod.fst = (h₁ ++ h₂).map Prod.fst → g = h₁ ++ h₂ ∧ e.recency = d.recency := by
  obtain ⟨hrep, hfollows⟩ := hc.represents
  obtain ⟨hresponses, hd⟩ := hrep.run hfollows hrun
  refine ⟨hresponses, ?_, fun r hr => perform_eq_of_failed hr, ?_⟩
  · have hafter := hfollows.run (h.map Prod.fst)
    rw [hresponses] at hafter
    have hremembers := hd.remembers hafter
    rwa [Lru.capacity_run] at hremembers
  · intro h₁ r x h₂ hh hx g e hg hrequests
    subst hh
    obtain ⟨hwithout, he⟩ := hrep.run hfollows hg
    rw [hrequests, Lru.run_of_failed hresponses hx] at hwithout he
    exact ⟨hwithout.symm, he.recency_eq.trans hd.recency_eq.symm⟩

/-- Four uses of three texts and a call that fails, in a cache for two. -/
theorem refines_lru_two : ∃ h d, Run (.bounded 2) h d ∧
    h.map Prod.fst = [.fetch "a", .fetch "b", .fetch "\x7b\x7b\x7d\x7d", .fetch "a", .fetch "c"] ∧
    uses h = ["a", "b", "a", "c"] ∧ d.recency = ["c", "a"] := by
  obtain ⟨h, d, hrun, hrequests⟩ := exists_run (.bounded 2)
    [.fetch "a", .fetch "b", .fetch "\x7b\x7b\x7d\x7d", .fetch "a", .fetch "c"]
  have ha : Template.parse "a" = .ok ⟨[.literal "a"]⟩ :=
    Template.parse_of_no_tag rfl (by decide)
  have hb : Template.parse "b" = .ok ⟨[.literal "b"]⟩ :=
    Template.parse_of_no_tag rfl (by decide)
  have hc : Template.parse "c" = .ok ⟨[.literal "c"]⟩ :=
    Template.parse_of_no_tag rfl (by decide)
  have hempty : Template.parse "\x7b\x7b\x7d\x7d" = .error ⟨⟨1, 1⟩, .emptyTag⟩ := by
    rw [Template.parse, Segments.ofChars_of_some (t := ⟨[], [], []⟩) rfl,
      Segments.ofChars_of_none rfl]
    rfl
  obtain ⟨hresponses, hremembers, -⟩ := refines_lru (.bounded 2) hrun
  have huses : uses h = ["a", "b", "a", "c"] := by
    rw [← hresponses, hrequests]
    simp [Lru.run, Lru.step, Lru.fetch, Lru.find?, Lru.use, Lru.empty, Recency.atMost, uses,
      usesAfter, Response.failed, ha, hb, hc, hempty]
  refine ⟨h, d, hrun, hrequests, huses, ?_⟩
  rw [hremembers.recency, huses]
  rfl

end BibTemplate.Cache

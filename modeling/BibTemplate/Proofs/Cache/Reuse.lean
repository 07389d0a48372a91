import BibTemplate.Proofs.Cache.Refinement

/-!
# When an instance serves again

A use of a text is served by an instance. The next use of the text is served by the same one
just when the cache has not been cleared and has not had to make room for too many other
texts in between; otherwise the text is read again. The events of a run tell which instance
served which use. What the textbook cache holds are the last instances among them.
-/
namespace BibTemplate.Cache

/-- What a call comes to. -/
inductive Event where
  /-- The text was fetched, and this instance served the use. -/
  | used (source : String) (held : Instance)
  | refused (source : String)
  | cleared

namespace Event

def ofFetch (source : String) : Except SyntaxError Instance → Event
  | .ok held => .used source held
  | .error _ => .refused source

def source? : Event → Option String
  | .used source _ => some source
  | _ => none

/-- The instance, if it was the text that was used. -/
def serves? (source : String) : Event → Option Instance
  | .used text held => if text = source then some held else none
  | _ => none

/-- The texts used since the last clearing, the latest last. -/
def usesAfter (us : List String) : Event → List String
  | .used source _ => us ++ [source]
  | .refused _ => us
  | .cleared => []

end Event

/-- The event of a call. A call that renders is served by the instance that its text is
fetched to. -/
def event (c : Cache) : Request → Event
  | .fetch source | .render source _ _ => .ofFetch source (c.fetch source).1
  | .clear => .cleared

/-- The events of a run of calls. Before each call, and after the last one, the entries may
come to stand in any order. -/
inductive Trace : Cache → List Request → List Event → Cache → Prop
  | done {c d : Cache} : c.Reordered d → Trace c [] [] d
  | call {c d e : Cache} {r : Request} {rs : List Request} {es : List Event} :
      c.Reordered d → Trace (d.perform r).2 rs es e → Trace c (r :: rs) (d.event r :: es) e

/-- The texts that were used, clearings notwithstanding. -/
def usedTexts (es : List Event) : List String := es.filterMap Event.source?

def Unused (source : String) (es : List Event) : Prop := source ∉ usedTexts es

/-- The instance served the last use of the text. -/
def ServedLast (es : List Event) (source : String) (i : Instance) : Prop :=
  ∃ before after, es = before ++ .used source i :: after ∧ Unused source after

theorem usedTexts_append (es fs : List Event) :
    usedTexts (es ++ fs) = usedTexts es ++ usedTexts fs :=
  List.filterMap_append

theorem mem_usedTexts_of_mem {es : List Event} {source : String} {i : Instance}
    (h : .used source i ∈ es) : source ∈ usedTexts es :=
  List.mem_filterMap.2 ⟨_, h, rfl⟩

theorem ServedLast.mem {es : List Event} {source : String} {i : Instance}
    (h : ServedLast es source i) : .used source i ∈ es := by
  obtain ⟨before, after, rfl, -⟩ := h
  simp

theorem ServedLast.concat {es : List Event} {source : String} {i : Instance}
    (h : ServedLast es source i) {e : Event} (he : e.source? ≠ some source) :
    ServedLast (es ++ [e]) source i := by
  obtain ⟨before, after, rfl, hafter⟩ := h
  refine ⟨before, after ++ [e], by simp, ?_⟩
  rw [Unused, usedTexts_append, List.mem_append, not_or]
  refine ⟨hafter, ?_⟩
  simpa [usedTexts] using he

theorem servedLast_concat (es : List Event) (source : String) (i : Instance) :
    ServedLast (es ++ [.used source i]) source i :=
  ⟨es, [], rfl, by simp [Unused, usedTexts]⟩

theorem ServedLast.findSome?_reverse {es : List Event} {source : String} {i : Instance}
    (h : ServedLast es source i) : es.reverse.findSome? (·.serves? source) = some i := by
  obtain ⟨before, after, rfl, hafter⟩ := h
  have hnone : after.reverse.findSome? (·.serves? source) = none := by
    rw [List.findSome?_eq_none_iff]
    intro e he
    cases e with
    | used text held =>
      have hne : text ≠ source := by
        intro ht
        exact hafter (mem_usedTexts_of_mem (ht ▸ List.mem_reverse.1 he))
      exact if_neg hne
    | refused text => rfl
    | cleared => rfl
  rw [List.reverse_append, List.reverse_cons, List.append_assoc, List.findSome?_append, hnone]
  simp [Event.serves?]

theorem ServedLast.unique {es : List Event} {source : String} {i j : Instance}
    (hi : ServedLast es source i) (hj : ServedLast es source j) : i = j :=
  Option.some.inj (hi.findSome?_reverse.symm.trans hj.findSome?_reverse)

/-- Without a clearing, the texts used since are added to those used before. -/
theorem foldl_usesAfter_of_notMem {es : List Event} (h : .cleared ∉ es) (us : List String) :
    es.foldl Event.usesAfter us = us ++ usedTexts es := by
  induction es generalizing us with
  | nil => simp [usedTexts]
  | cons e es ih =>
    rw [List.mem_cons, not_or] at h
    rw [List.foldl_cons, ih h.2]
    cases e with
    | used text held => simp [Event.usesAfter, usedTexts, Event.source?]
    | refused text => rfl
    | cleared => exact absurd rfl h.1

/-- After a clearing, only what was used since counts. -/
theorem foldl_usesAfter_subset {es : List Event} (h : .cleared ∈ es) (us : List String) :
    es.foldl Event.usesAfter us ⊆ usedTexts es := by
  induction es using List.reverseRecOn with
  | nil => cases h
  | append_singleton es e ih =>
    rw [List.foldl_concat, usedTexts_append]
    cases e with
    | cleared => exact List.nil_subset _
    | used text held =>
      have hes : .cleared ∈ es := by simpa using h
      intro t ht
      exact List.mem_append.2 ((List.mem_append.1 ht).imp_left fun ht => ih hes ht)
    | refused text =>
      have hes : .cleared ∈ es := by simpa using h
      exact List.subset_append_of_subset_left _ (ih hes)

namespace Lru

def event (s : Lru) : Request → Event
  | .fetch source | .render source _ _ => .ofFetch source (s.fetch source).1
  | .clear => .cleared

def events (s : Lru) : List Request → List Event
  | [] => []
  | r :: rs => s.event r :: (s.step r).2.events rs

/-- All that a call can do. -/
inductive Does (s : Lru) : Event → Lru → Prop
  | hit {source : String} {i : Instance} :
      s.find? source = some i → Does s (.used source i) (s.use source i)
  | miss {source : String} {template : Template} :
      s.find? source = none → Template.parse source = .ok template →
        Does s (.used source ⟨s.readings, template⟩)
          { s.use source ⟨s.readings, template⟩ with readings := s.readings + 1 }
  | refuse {source : String} {e : SyntaxError} :
      Template.parse source = .error e → Does s (.refused source) s
  | clear : Does s .cleared { s with held := [] }

theorem does_fetch (s : Lru) (source : String) :
    s.Does (.ofFetch source (s.fetch source).1) (s.fetch source).2 := by
  unfold fetch
  cases hf : s.find? source with
  | some i => exact .hit hf
  | none =>
    cases hp : Template.parse source with
    | error e => exact .refuse hp
    | ok template => exact .miss hf hp

theorem does_step (s : Lru) (r : Request) : s.Does (s.event r) (s.step r).2 := by
  cases r with
  | fetch source => exact s.does_fetch source
  | render source context options => exact s.does_fetch source
  | clear => exact .clear

variable {s t : Lru} {us : List String} {es : List Event} {e : Event}

theorem mem_held_use {source : String} {i : Instance} {p : String × Instance}
    (h : p ∈ (s.use source i).held) : p = (source, i) ∨ p ∈ s.held ∧ p.1 ≠ source := by
  have hmem := (Recency.atMost_sublist _ _).subset h
  simpa using hmem

theorem Follows.does (h : s.Follows us) (hd : s.Does e t) : t.Follows (e.usesAfter us) := by
  cases hd with
  | hit hf =>
    have hi := h.parsed _ (mem_of_find?_eq_some hf)
    exact h.use hi
  | @miss source template hf hp =>
    have hu := h.use (i := ⟨s.readings, template⟩) hp
    exact ⟨hu.positive, hu.keys, hu.parsed⟩
  | refuse hp => exact h
  | clear => exact ⟨h.positive, rfl, by simp⟩

/-- The events that have led to the cache tell what it holds: of each text the instance that
served it last. All instances that have served are numbered below the next reading. -/
structure Serves (s : Lru) (es : List Event) : Prop where
  follows : s.Follows (es.foldl Event.usesAfter [])
  last : ∀ p ∈ s.held, ServedLast es p.1 p.2
  numbered : ∀ source i, .used source i ∈ es → i.number < s.readings
  parsed : ∀ source i, .used source i ∈ es → Template.parse source = .ok i.template
  refused : ∀ source, .refused source ∈ es → ∃ e, Template.parse source = .error e
  apart : ∀ source text i j, .used source i ∈ es → .used text j ∈ es → i.number = j.number →
    source = text

theorem Serves.mem_of_find? (h : s.Serves es) {source : String} {i : Instance}
    (hf : s.find? source = some i) : .used source i ∈ es :=
  (h.last _ (mem_of_find?_eq_some hf)).mem

theorem Serves.last_use (h : s.Serves es) (source : String) (i : Instance) :
    ∀ p ∈ (s.use source i).held, ServedLast (es ++ [.used source i]) p.1 p.2 := by
  intro p hp
  rcases mem_held_use hp with rfl | ⟨hp, hne⟩
  · exact servedLast_concat es source i
  · refine (h.last p hp).concat ?_
    simpa [Event.source?] using hne.symm

theorem Serves.last_does (h : s.Serves es) (hd : s.Does e t) :
    ∀ p ∈ t.held, ServedLast (es ++ [e]) p.1 p.2 := by
  intro p hp
  cases hd with
  | hit _ | miss _ _ => exact h.last_use _ _ p hp
  | refuse _ => exact (h.last p hp).concat (by simp [Event.source?])
  | clear => cases hp

/-- A use is served by an instance that has served before or by a new reading. -/
theorem Serves.used_cases (h : s.Serves es) (hd : s.Does e t) {source : String} {i : Instance}
    (hi : .used source i ∈ es ++ [e]) :
    .used source i ∈ es ∨ e = .used source i ∧ i.number = s.readings ∧
      t.readings = s.readings + 1 ∧ Template.parse source = .ok i.template := by
  rcases List.mem_append.1 hi with hi | hi
  · exact .inl hi
  · obtain rfl := List.mem_singleton.1 hi
    cases hd with
    | hit hf => exact .inl (h.mem_of_find? hf)
    | miss hf hp => exact .inr ⟨rfl, rfl, rfl, hp⟩

theorem Does.readings_le (hd : s.Does e t) : s.readings ≤ t.readings := by
  cases hd <;> simp [use]

theorem Does.capacity_eq (hd : s.Does e t) : t.capacity = s.capacity := by
  cases hd <;> rfl

theorem Serves.does (h : s.Serves es) (hd : s.Does e t) : t.Serves (es ++ [e]) := by
  refine ⟨?_, h.last_does hd, ?_, ?_, ?_, ?_⟩
  · rw [List.foldl_concat]
    exact h.follows.does hd
  · intro source i hi
    have hle := hd.readings_le
    rcases h.used_cases hd hi with hi | ⟨-, hnumber, hreadings, -⟩
    · exact Nat.lt_of_lt_of_le (h.numbered source i hi) hle
    · omega
  · intro source i hi
    rcases h.used_cases hd hi with hi | ⟨-, -, -, hp⟩
    · exact h.parsed source i hi
    · exact hp
  · intro source hs
    rcases List.mem_append.1 hs with hs | hs
    · exact h.refused source hs
    · obtain rfl := List.mem_singleton.1 hs
      cases hd with
      | refuse hp => exact ⟨_, hp⟩
  · intro source text i j hi hj hij
    rcases h.used_cases hd hi with hi | ⟨he, hnumber, -, -⟩
    · have hlt := h.numbered source i hi
      rcases h.used_cases hd hj with hj | ⟨-, hnumber, -, -⟩
      · exact h.apart source text i j hi hj hij
      · omega
    · rcases h.used_cases hd hj with hj | ⟨he', -, -, -⟩
      · have hlt := h.numbered text j hj
        omega
      · rw [he] at he'
        exact (Event.used.inj he').1

theorem Serves.run (h : s.Serves es) (rs : List Request) :
    ∃ t : Lru, t.Serves (es ++ s.events rs) := by
  induction rs generalizing s es with
  | nil => exact ⟨s, by simpa [events] using h⟩
  | cons r rs ih =>
    obtain ⟨t, ht⟩ := ih (h.does (s.does_step r))
    refine ⟨t, ?_⟩
    rwa [List.append_assoc, List.singleton_append] at ht

/-- In front of each event of a run stands the cache that the events before have led to. -/
theorem Serves.before (h : s.Serves es) {rs : List Request} {before after : List Event}
    (hrun : s.events rs = before ++ e :: after) :
    ∃ t u : Lru, t.Serves (es ++ before) ∧ t.Does e u ∧ t.capacity = s.capacity := by
  induction before generalizing s es rs with
  | nil =>
    cases rs with
    | nil => cases hrun
    | cons r rs =>
      obtain ⟨rfl, -⟩ : s.event r = e ∧ (s.step r).2.events rs = after := by
        simpa [events] using hrun
      exact ⟨s, _, by simpa using h, s.does_step r, rfl⟩
  | cons f before ih =>
    cases rs with
    | nil => cases hrun
    | cons r rs =>
      obtain ⟨rfl, hrest⟩ : s.event r = f ∧ (s.step r).2.events rs = before ++ e :: after := by
        simpa [events] using hrun
      have hd := s.does_step r
      obtain ⟨t, u, ht, hdoes, hcapacity⟩ := ih (h.does hd) hrest
      refine ⟨t, u, ?_, hdoes, hcapacity.trans hd.capacity_eq⟩
      rwa [List.append_assoc, List.singleton_append] at ht

theorem find?_isSome_iff {source : String} :
    (∃ i, s.find? source = some i) ↔ source ∈ s.held.map Prod.fst := by
  rw [← Option.ne_none_iff_exists', ne_eq, find?_eq_none_iff]
  simp

/-- A text that was used is held until the cache is cleared or as many other texts are used
as it has room for. -/
theorem Serves.find?_isSome_iff {before after : List Event} {source : String} {i : Instance}
    (h : s.Serves (before ++ .used source i :: after)) (hafter : Unused source after) :
    (∃ j, s.find? source = some j) ↔ .cleared ∉ after ∧
      ∀ n, s.capacity = some n → (usedTexts after).dedup.length < n := by
  have hkeys := h.follows.keys
  rw [List.foldl_append, List.foldl_cons] at hkeys
  rw [Lru.find?_isSome_iff, hkeys]
  by_cases hclear : Event.cleared ∈ after
  · have hsub := foldl_usesAfter_subset hclear
      ((Event.used source i).usesAfter (before.foldl Event.usesAfter []))
    have hnotMem : source ∉ Recency.ofUses s.capacity (after.foldl Event.usesAfter
        ((Event.used source i).usesAfter (before.foldl Event.usesAfter []))) := by
      intro hmem
      rw [Recency.ofUses_eq] at hmem
      have hmem := (Recency.atMost_sublist _ _).subset hmem
      rw [List.mem_reverse, List.mem_dedup] at hmem
      exact hafter (hsub hmem)
    simp [hnotMem, hclear]
  · rw [foldl_usesAfter_of_notMem hclear, Event.usesAfter, List.append_assoc,
      List.singleton_append, Recency.mem_ofUses_iff hafter]
    simp [hclear]

end Lru

theorem event_eq {c : Cache} {s : Lru} {us : List String} (h : c.Represents s)
    (hs : s.Follows us) (r : Request) : c.event r = s.event r := by
  cases r with
  | fetch source => exact congrArg (Event.ofFetch source) (h.fetch hs source).1
  | render source context options => exact congrArg (Event.ofFetch source) (h.fetch hs source).1
  | clear => rfl

theorem Trace.events_eq {c d : Cache} {s : Lru} {us : List String} {rs : List Request}
    {es : List Event} (htrace : Trace c rs es d) (h : c.Represents s) (hs : s.Follows us) :
    es = s.events rs := by
  induction htrace generalizing s us with
  | done _ => rfl
  | @call c d e r rs es hd _ ih =>
    have hd := h.reorder hd
    rw [Lru.events, event_eq hd hs r, ih (hd.step hs r).2 (hs.step r)]

theorem exists_trace (c : Cache) (rs : List Request) : ∃ es d, Trace c rs es d := by
  have hrefl : ∀ c : Cache, c.Reordered c := fun c => ⟨_, .refl _, rfl⟩
  induction rs generalizing c with
  | nil => exact ⟨[], c, .done (hrefl c)⟩
  | cons r rs ih =>
    obtain ⟨es, d, htrace⟩ := ih (c.perform r).2
    exact ⟨_, d, .call (hrefl c) htrace⟩

/-- Which instance serves which use. -/
structure Reuses (capacity : Option ℕ) (es : List Event) : Prop where
  /-- The next use of a text is served by the same instance just when the cache was not
  cleared and fewer other texts were used in between than it has room for. -/
  same : ∀ before source i between j after,
    es = before ++ .used source i :: (between ++ .used source j :: after) →
      Unused source between → (j = i ↔ .cleared ∉ between ∧
        ∀ n, capacity = some n → (usedTexts between).dedup.length < n)
  /-- An instance that did not serve the last use of its text, if there was one, has not
  served any use at all. -/
  new : ∀ before source j after, es = before ++ .used source j :: after →
    ¬ ServedLast before source j → ∀ text i, .used text i ∈ before → i.number ≠ j.number
  apart : ∀ source text i j, .used source i ∈ es → .used text j ∈ es → i.number = j.number →
    source = text
  parsed : ∀ source i, .used source i ∈ es → Template.parse source = .ok i.template
  refused : ∀ source, .refused source ∈ es → ∃ e, Template.parse source = .error e

theorem Lru.serves_empty {capacity : Option ℕ} (h : (empty capacity).Follows []) :
    (empty capacity).Serves [] := by
  refine ⟨h, ?_, ?_, ?_, ?_, ?_⟩ <;> simp [empty]

theorem Lru.Serves.reuses {s : Lru} (h : s.Serves []) (rs : List Request) :
    Reuses s.capacity (s.events rs) := by
  obtain ⟨t, ht⟩ := h.run rs
  refine ⟨?_, ?_, ht.apart, ht.parsed, ht.refused⟩
  · intro before source i between j after hrun hunused
    rw [← List.cons_append, ← List.append_assoc] at hrun
    obtain ⟨u, v, hu, hd, hcapacity⟩ := h.before hrun
    have hlast : ServedLast (before ++ .used source i :: between) source i :=
      ⟨before, between, rfl, hunused⟩
    rw [← hcapacity, ← hu.find?_isSome_iff hunused]
    cases hd with
    | hit hf =>
      have hj : ServedLast (before ++ .used source i :: between) source j :=
        hu.last _ (mem_of_find?_eq_some hf)
      simp [hf, hj.unique hlast]
    | @miss _ template hf hp =>
      have hlt := hu.numbered source i hlast.mem
      have hne : (⟨u.readings, template⟩ : Instance) ≠ i := by
        intro he
        rw [← he] at hlt
        exact absurd hlt (Nat.lt_irrefl _)
      simp [hf, hne]
  · intro before source j after hrun hnot text i hi
    obtain ⟨u, v, hu, hd, -⟩ := h.before hrun
    cases hd with
    | hit hf => exact absurd (hu.last _ (mem_of_find?_eq_some hf)) hnot
    | miss hf hp => exact Nat.ne_of_lt (hu.numbered text i hi)

/-- Whatever order its entries come to stand in, a cache serves the next use of a text by the
same instance just when it was not cleared and fewer other texts were used in between than it
has room for. Otherwise, and at the first use, it serves an instance that is new, so no two
texts share one. -/
theorem reuses_of_trace {capacity : Option ℕ} {c d : Cache} {rs : List Request}
    {es : List Event} (hc : Fresh capacity c) (htrace : Trace c rs es d) :
    Reuses capacity es := by
  obtain ⟨hrep, hfollows⟩ := hc.represents
  rw [htrace.events_eq hrep hfollows]
  exact (Lru.serves_empty hfollows).reuses rs

/-- In a cache for two, a text that one other text was used after keeps its instance, and one
that two others were used after has lost it. -/
theorem reuses_of_trace_two : ∃ i j k l m d, Trace (.bounded 2)
    [.fetch "a", .render "b" .null {}, .fetch "a", .fetch "c", .fetch "b"]
    [.used "a" i, .used "b" j, .used "a" k, .used "c" l, .used "b" m] d ∧ k = i ∧ m ≠ j := by
  have ha : Template.parse "a" = .ok ⟨[.literal "a"]⟩ :=
    Template.parse_of_no_tag rfl (by decide)
  have hb : Template.parse "b" = .ok ⟨[.literal "b"]⟩ :=
    Template.parse_of_no_tag rfl (by decide)
  have hc : Template.parse "c" = .ok ⟨[.literal "c"]⟩ :=
    Template.parse_of_no_tag rfl (by decide)
  obtain ⟨es, d, htrace⟩ := exists_trace (.bounded 2)
    [.fetch "a", .render "b" .null {}, .fetch "a", .fetch "c", .fetch "b"]
  have hreuses := reuses_of_trace (.bounded 2) htrace
  obtain ⟨hrep, hfollows⟩ := (Fresh.bounded 2).represents
  obtain ⟨i, j, k, l, m, rfl⟩ : ∃ i j k l m, es =
      [.used "a" i, .used "b" j, .used "a" k, .used "c" l, .used "b" m] := by
    rw [htrace.events_eq hrep hfollows]
    simp [Lru.events, Lru.event, Lru.step, Lru.fetch, Lru.find?, Lru.use, Lru.empty,
      Recency.atMost, Event.ofFetch, ha, hb, hc]
  refine ⟨i, j, k, l, m, d, htrace, ?_, ?_⟩
  · have hsame := hreuses.same [] "a" i [.used "b" j] k [.used "c" l, .used "b" m] rfl
      (by simp [Unused, usedTexts, Event.source?])
    refine hsame.2 ⟨by simp, ?_⟩
    intro n hn
    cases hn
    simp [usedTexts, Event.source?]
  · have hsame := hreuses.same [.used "a" i] "b" j [.used "a" k, .used "c" l] m [] rfl
      (by simp [Unused, usedTexts, Event.source?])
    intro hm
    have hroom := (hsame.1 hm).2 2 rfl
    simp [usedTexts, Event.source?] at hroom

end BibTemplate.Cache

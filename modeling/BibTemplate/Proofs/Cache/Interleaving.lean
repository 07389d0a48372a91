import BibTemplate.Cache.Shared
import BibTemplate.Proofs.Cache.Histories
import Mathlib.Logic.Relation

/-!
# Calls in any order

However the parts of calls that share a cache come to alternate, each call returns what
reading its text gives, and the cache stays sound. The look-up that an insertion begins
with sees to it that a text has one instance for as long as it is held: a call that comes
second takes the instance of the first.
-/
namespace BibTemplate.Cache.Shared

variable {ι : Type} [DecidableEq ι] {source : ι → String} {s t : Shared ι} {x y : ι}
  {k : String} {i j : Instance}

/-- What goes on among the calls: one of them has its next part done, or the entries come
to stand in another order. -/
inductive Move (source : ι → String) (s : Shared ι) : Shared ι → Prop
  | advance (x : ι) : Move source s (s.advance source x)
  | reorder {d : Cache} : s.cache.Reordered d → Move source s { s with cache := d }

/-- Besides the calls going on, the cache may be cleared. -/
inductive Step (source : ι → String) (s : Shared ι) : Shared ι → Prop
  | move {t : Shared ι} : Move source s t → Step source s t
  | clear : Step source s { s with cache := s.cache.clear }

/-- One or more steps, after each of which something is held for the text. -/
def Keeps (source : ι → String) (k : String) : Shared ι → Shared ι → Prop :=
  Relation.TransGen fun s t => Step source s t ∧ ∃ i, t.cache.store.find? k = some i

/-- From `s` to `t` one instance is held for the text, if any is held at the beginning, and
the calls for the text that return in between return that instance. -/
def OneInstance (source : ι → String) (k : String) (s t : Shared ι) : Prop :=
  ∃ i, t.cache.store.find? k = some i ∧ (∀ j, s.cache.store.find? k = some j → j = i) ∧
    ∀ x, source x = k → (∀ r, s.stage x ≠ .returned r) → ∀ r, t.stage x = .returned r → r = .ok i

/-- The texts that something is held for. -/
def keys (s : Shared ι) : List String := s.cache.store.entries.map Entry.source

theorem cache_moveOn (s : Shared ι) (x : ι) (cache : Cache) (stage : Stage) :
    (s.moveOn x cache stage).cache = cache := rfl

@[simp] theorem stage_moveOn_self (s : Shared ι) (x : ι) (cache : Cache) (stage : Stage) :
    (s.moveOn x cache stage).stage x = stage :=
  if_pos rfl

theorem stage_moveOn_of_ne (h : y ≠ x) (cache : Cache) (stage : Stage) :
    (s.moveOn x cache stage).stage y = s.stage y :=
  if_neg h

/-- All that the next part of the call `x` can be. -/
inductive Advances (source : ι → String) (s : Shared ι) (x : ι) : Shared ι → Prop
  | found {i : Instance} :
      s.stage x = .waiting → s.cache.store.find? (source x) = some i →
        Advances source s x (s.moveOn x
          { s.cache with store := (s.cache.store.lookup (source x)).2 } (.returned (.ok i)))
  | missed :
      s.stage x = .waiting → s.cache.store.find? (source x) = none →
        Advances source s x (s.moveOn x
          { s.cache with store := (s.cache.store.lookup (source x)).2 } .missed)
  | refused {e : SyntaxError} :
      s.stage x = .missed → Template.parse (source x) = .error e →
        Advances source s x (s.moveOn x s.cache (.returned (.error e)))
  | read {template : Template} :
      s.stage x = .missed → Template.parse (source x) = .ok template →
        Advances source s x (s.moveOn x { s.cache with readings := s.cache.readings + 1 }
          (.parsed ⟨s.cache.readings, template⟩))
  | inserted {i : Instance} :
      s.stage x = .parsed i →
        Advances source s x (s.moveOn x
          { s.cache with store := (s.cache.store.insert (source x) i).2 }
          (.returned (.ok (s.cache.store.insert (source x) i).1)))
  | idle {r : Except SyntaxError Instance} :
      s.stage x = .returned r → Advances source s x s

theorem advances (source : ι → String) (s : Shared ι) (x : ι) :
    Advances source s x (s.advance source x) := by
  unfold advance
  cases hx : s.stage x with
  | waiting =>
    cases hf : s.cache.store.find? (source x) with
    | some i =>
      simp only [Store.lookup_eq, hf]
      exact .found hx hf
    | none =>
      simp only [Store.lookup_eq, hf]
      exact .missed hx hf
  | missed =>
    cases hp : Template.parse (source x) with
    | error e => exact .refused hx hp
    | ok template => exact .read hx hp
  | parsed i => exact .inserted hx
  | returned r => exact .idle hx

theorem Move.cases (h : Move source s t) :
    (∃ x, Advances source s x t) ∨ ∃ d, s.cache.Reordered d ∧ t = { s with cache := d } := by
  cases h with
  | advance x => exact .inl ⟨x, advances source s x⟩
  | reorder hd => exact .inr ⟨_, hd, rfl⟩

theorem Step.cases (h : Step source s t) :
    (∃ x, Advances source s x t) ∨ (∃ d, s.cache.Reordered d ∧ t = { s with cache := d }) ∨
      t = { s with cache := s.cache.clear } := by
  cases h with
  | clear => exact .inr (.inr rfl)
  | move h => exact h.cases.imp_right .inl

theorem Advances.stage_of_ne (h : Advances source s x t) (hyx : y ≠ x) :
    t.stage y = s.stage y := by
  cases h <;> first | exact stage_moveOn_of_ne hyx _ _ | rfl

theorem moves_advanceAll (source : ι → String) (s : Shared ι) (xs : List ι) :
    Relation.ReflTransGen (Move source) s (s.advanceAll source xs) := by
  induction xs generalizing s with
  | nil => exact .refl
  | cons x xs ih => exact .head (.advance x) (ih _)

/-- Left to itself a call is a fetch. -/
theorem advance_undisturbed (hx : s.stage x = .waiting) :
    let t := s.advanceAll source [x, x, x]
    t.cache = (s.cache.fetch (source x)).2 ∧
      t.stage x = .returned (s.cache.fetch (source x)).1 := by
  unfold fetch
  cases hf : s.cache.store.find? (source x) with
  | some i => simp [advanceAll, advance, cache_moveOn, hx, hf, Store.lookup_eq]
  | none =>
    cases hp : Template.parse (source x) with
    | error e => simp [advanceAll, advance, cache_moveOn, hx, hf, hp, Store.lookup_eq]
    | ok template => simp [advanceAll, advance, cache_moveOn, hx, hf, hp, Store.lookup_eq]

/-- A call that has returned does nothing more. -/
theorem Step.stage_of_returned {r : Except SyntaxError Instance} (h : Step source s t)
    (hy : s.stage y = .returned r) : t.stage y = .returned r := by
  obtain ⟨x, hadv⟩ | ⟨d, -, rfl⟩ | rfl := h.cases
  · by_cases hyx : y = x
    · subst hyx
      cases hadv <;> simp_all
    · exact (hadv.stage_of_ne hyx).trans hy
  · exact hy
  · exact hy

/-- The store is sound, and every call has what reading its text gives. -/
structure Sound (source : ι → String) (s : Shared ι) : Prop where
  store : s.cache.store.Sound
  parsed : ∀ x i, s.stage x = .parsed i → Template.parse (source x) = .ok i.template
  returned : ∀ x r, s.stage x = .returned r →
    r.map Instance.template = Template.parse (source x)

theorem Sound.moveOn (h : s.Sound source) {cache : Cache} {stage : Stage}
    (hstore : cache.store.Sound)
    (hparsed : ∀ i, stage = .parsed i → Template.parse (source x) = .ok i.template)
    (hreturned : ∀ r, stage = .returned r →
      r.map Instance.template = Template.parse (source x)) :
    (s.moveOn x cache stage).Sound source := by
  refine ⟨hstore, ?_, ?_⟩
  · intro y i hy
    by_cases hyx : y = x
    · subst hyx
      exact hparsed i (by simpa using hy)
    · rw [stage_moveOn_of_ne hyx] at hy
      exact h.parsed y i hy
  · intro y r hy
    by_cases hyx : y = x
    · subst hyx
      exact hreturned r (by simpa using hy)
    · rw [stage_moveOn_of_ne hyx] at hy
      exact h.returned y r hy

theorem Sound.advances (h : s.Sound source) (hadv : Advances source s x t) :
    t.Sound source := by
  cases hadv with
  | found hx hf =>
    refine h.moveOn (h.store.lookup _) (by simp) ?_
    intro r hr
    cases hr
    exact (h.store.parse_of_find? hf).symm
  | missed hx hf => exact h.moveOn (h.store.lookup _) (by simp) (by simp)
  | refused hx hp =>
    refine h.moveOn h.store (by simp) ?_
    intro r hr
    cases hr
    exact hp.symm
  | read hx hp =>
    refine h.moveOn h.store ?_ (by simp)
    intro i hi
    cases hi
    exact hp
  | inserted hx =>
    have hstore := h.store.insert (h.parsed x _ hx)
    refine h.moveOn hstore (by simp) ?_
    intro r hr
    cases hr
    exact (hstore.parse_of_find? (Store.find?_insert_self ..)).symm
  | idle hx => exact h

theorem Sound.step (h : s.Sound source) (hst : Step source s t) : t.Sound source := by
  obtain ⟨x, hadv⟩ | ⟨d, ⟨es, hp, rfl⟩, rfl⟩ | rfl := hst.cases
  · exact h.advances hadv
  · exact ⟨h.store.reorder hp, h.parsed, h.returned⟩
  · exact ⟨h.store.clear, h.parsed, h.returned⟩

theorem Sound.run (h : s.Sound source) (hst : Relation.ReflTransGen (Step source) s t) :
    t.Sound source := by
  induction hst with
  | refl => exact h
  | tail _ hst ih => exact ih.step hst

theorem capacity_step (hst : Step source s t) :
    t.cache.store.capacity = s.cache.store.capacity := by
  obtain ⟨x, hadv⟩ | ⟨d, ⟨es, -, rfl⟩, rfl⟩ | rfl := hst.cases
  · cases hadv <;> simp [cache_moveOn, Store.lookup_eq, Store.capacity_insert]
  · rfl
  · rfl

theorem capacity_run (hst : Relation.ReflTransGen (Step source) s t) :
    t.cache.store.capacity = s.cache.store.capacity := by
  induction hst with
  | refl => rfl
  | tail _ hst ih => exact (capacity_step hst).trans ih

/-- What is newly held has just been returned. -/
theorem Sound.find?_cases (h : s.Sound source) (hst : Step source s t)
    (hi : t.cache.store.find? k = some i) :
    s.cache.store.find? k = some i ∨
      s.cache.store.find? k = none ∧ ∃ x, source x = k ∧ t.stage x = .returned (.ok i) := by
  obtain ⟨x, hadv⟩ | ⟨d, ⟨es, hp, rfl⟩, rfl⟩ | rfl := hst.cases
  · cases hadv with
    | found _ _ | missed _ _ => exact .inl (Store.find?_lookup.symm.trans hi)
    | refused _ _ | read _ _ | idle _ => exact .inl hi
    | @inserted i' hx =>
      refine (Store.find?_insert_cases h.store (h.parsed x i' hx) hi).imp_right ?_
      intro hnew
      obtain ⟨rfl, hnone, rfl⟩ := hnew
      exact ⟨hnone, x, rfl, stage_moveOn_self ..⟩
  · exact .inl ((Store.find?_of_perm h.store.keys hp).symm.trans hi)
  · simp [Cache.clear, Store.clear, Store.find?] at hi

/-- A step does not exchange the instance of a text, though it may drop it. -/
theorem Sound.find?_of_step (h : s.Sound source) (hst : Step source s t)
    (hi : t.cache.store.find? k = some i) (hj : s.cache.store.find? k = some j) : i = j := by
  rcases h.find?_cases hst hi with hold | hnew
  · exact Option.some.inj (hold.symm.trans hj)
  · have hnone := hnew.1.symm.trans hj
    cases hnone

/-- What a call returns is held for its text at that moment. -/
theorem find?_of_returned (hst : Step source s t) (hs : ∀ r, s.stage x ≠ .returned r)
    (ht : t.stage x = .returned (.ok i)) : t.cache.store.find? (source x) = some i := by
  obtain ⟨y, hadv⟩ | ⟨d, -, rfl⟩ | rfl := hst.cases
  · by_cases hxy : x = y
    · subst hxy
      cases hadv with
      | found _ hf =>
        obtain rfl : _ = i := by simpa using ht
        exact Store.find?_lookup.trans hf
      | inserted _ =>
        obtain rfl : _ = i := by simpa using ht
        exact Store.find?_insert_self ..
      | idle hr => exact absurd hr (hs _)
      | _ => simp at ht
    · exact absurd ((hadv.stage_of_ne hxy).symm.trans ht) (hs _)
  · exact absurd ht (hs _)
  · exact absurd ht (hs _)

theorem Sound.eq_of_returned (h : s.Sound source) (hst : Step source s t)
    (hi : t.cache.store.find? (source x) = some i) (hs : ∀ r, s.stage x ≠ .returned r)
    {r : Except SyntaxError Instance} (ht : t.stage x = .returned r) : r = .ok i := by
  have hsound := h.step hst
  cases r with
  | error e =>
    have herror := (hsound.returned x _ ht).trans (hsound.store.parse_of_find? hi)
    cases herror
  | ok j =>
    have hj := find?_of_returned hst hs ht
    rw [hi] at hj
    rw [Option.some.inj hj]

/-- While something is held for a text it is one instance, and the calls for the text that
return in this time return that instance. -/
theorem Sound.oneInstance (h : s.Sound source) (hst : Keeps source k s t) :
    OneInstance source k s t := by
  induction hst with
  | @single t hst =>
    obtain ⟨hst, i, hi⟩ := hst
    refine ⟨i, hi, fun j hj => (h.find?_of_step hst hi hj).symm, ?_⟩
    intro x hx hs r hr
    exact h.eq_of_returned hst (hx ▸ hi) hs hr
  | @tail t u hbefore hst ih =>
    obtain ⟨hst, i, hi⟩ := hst
    obtain ⟨j, hj, hstart, hcalls⟩ := ih
    have hrun := Relation.ReflTransGen.mono (fun _ _ h => h.1) _ _ hbefore.to_reflTransGen
    have ht := h.run hrun
    obtain rfl := ht.find?_of_step hst hi hj
    refine ⟨i, hi, hstart, ?_⟩
    intro x hx hs r hr
    by_cases hreturned : ∃ r, t.stage x = .returned r
    · obtain ⟨r', hr'⟩ := hreturned
      have hsame := (hst.stage_of_returned hr').symm.trans hr
      obtain rfl : r' = r := by simpa using hsame
      exact hcalls x hx hs r' hr'
    · exact ht.eq_of_returned hst (hx ▸ hi) (not_exists.1 hreturned) hr

/-- Every call that has returned an instance has its text held, and nothing else is held. -/
structure Complete (source : ι → String) (s : Shared ι) : Prop where
  unbounded : s.cache.store.capacity = none
  held : ∀ x i, s.stage x = .returned (.ok i) → s.cache.store.find? (source x) = some i
  requested : ∀ k i, s.cache.store.find? k = some i →
    ∃ x, source x = k ∧ s.stage x = .returned (.ok i)

/-- Nothing is dropped while there is no bound and nobody clears the cache. -/
theorem Move.find?_of_unbounded (hs : s.Sound source) (hst : Move source s t)
    (hu : s.cache.store.capacity = none) (hi : s.cache.store.find? k = some i) :
    t.cache.store.find? k = some i := by
  obtain ⟨x, hadv⟩ | ⟨d, ⟨es, hp, rfl⟩, rfl⟩ := hst.cases
  · cases hadv with
    | found _ _ | missed _ _ => exact Store.find?_lookup.trans hi
    | refused _ _ | read _ _ | idle _ => exact hi
    | inserted _ => exact Store.find?_insert_of_unbounded hu hi _
  · exact (Store.find?_of_perm hs.store.keys hp).trans hi

theorem Complete.move (h : s.Complete source) (hs : s.Sound source) (hst : Move source s t) :
    t.Complete source := by
  have hstep : Step source s t := .move hst
  refine ⟨(capacity_step hstep).trans h.unbounded, ?_, ?_⟩
  · intro x i hx
    by_cases hreturned : ∃ r, s.stage x = .returned r
    · obtain ⟨r, hr⟩ := hreturned
      have hsame := (hstep.stage_of_returned hr).symm.trans hx
      obtain rfl : r = .ok i := by simpa using hsame
      exact hst.find?_of_unbounded hs h.unbounded (h.held x i hr)
    · exact find?_of_returned hstep (not_exists.1 hreturned) hx
  · intro k i hi
    rcases hs.find?_cases hstep hi with hold | hnew
    · obtain ⟨x, hx, hr⟩ := h.requested k i hold
      exact ⟨x, hx, hstep.stage_of_returned hr⟩
    · exact hnew.2

theorem steps_of_moves (hst : Relation.ReflTransGen (Move source) s t) :
    Relation.ReflTransGen (Step source) s t :=
  Relation.ReflTransGen.mono (fun _ _ h => Step.move h) _ _ hst

theorem Complete.run (h : s.Complete source) (hs : s.Sound source)
    (hst : Relation.ReflTransGen (Move source) s t) : t.Complete source := by
  induction hst with
  | refl => exact h
  | tail hbefore hst ih =>
    exact ih.move (hs.run (steps_of_moves hbefore)) hst

omit [DecidableEq ι] in
/-- When all calls have returned, the texts held are those that were asked for and can be
read. -/
theorem Complete.mem_keys_iff (h : s.Complete source) (hs : s.Sound source)
    (hall : ∀ x, ∃ r, s.stage x = .returned r) :
    k ∈ s.keys ↔ ∃ x, source x = k ∧ ∃ template, Template.parse k = .ok template := by
  rw [keys, Store.mem_keys_iff]
  constructor
  · intro hk
    obtain ⟨i, hi⟩ := hk
    obtain ⟨x, hx, -⟩ := h.requested k i hi
    exact ⟨x, hx, i.template, hs.store.parse_of_find? hi⟩
  · intro hk
    obtain ⟨x, rfl, template, hp⟩ := hk
    obtain ⟨r, hr⟩ := hall x
    obtain ⟨i, rfl, -⟩ := map_eq_ok_iff.1 ((hs.returned x r hr).trans hp)
    exact ⟨i, h.held x i hr⟩

omit [DecidableEq ι] in
theorem sound_start {capacity : Option ℕ} {c : Cache} (h : Fresh capacity c) :
    (start c).Sound source ∧ c.store.capacity = capacity ∧ c.store.entries = [] := by
  have hsound : (start c).Sound source := ⟨h.sound, by simp [start], by simp [start]⟩
  cases h with
  | unbounded => exact ⟨hsound, rfl, rfl⟩
  | bounded n => exact ⟨hsound, rfl, rfl⟩

/-- In whatever order the parts of calls follow one another, with clearings between them,
every call that has returned has what reading its text gives. The cache holds for each text
the template of that text, and no more texts than its bound allows. While a text is held it
has one instance, and calls for it return that instance. Without a bound and without
clearing a text has one instance for good, and when all calls have returned, the texts held
are those asked for that can be read. -/
theorem interleaving_safe (source : ι → String) {capacity : Option ℕ} {c : Cache}
    (hc : Fresh capacity c) :
    (∀ s, Relation.ReflTransGen (Step source) (start c) s →
      (∀ x r, s.stage x = .returned r →
        r.map Instance.template = Template.parse (source x)) ∧
      (s.keys.Nodup ∧
        (∀ e ∈ s.cache.store.entries, Template.parse e.source = .ok e.held.template) ∧
        ∀ n, capacity = some n → s.cache.size ≤ n) ∧
      ∀ k t, Keeps source k s t → OneInstance source k s t) ∧
    (capacity = none → ∀ s, Relation.ReflTransGen (Move source) (start c) s →
      (∀ x y i j, source x = source y → s.stage x = .returned (.ok i) →
        s.stage y = .returned (.ok j) → i = j) ∧
      ((∀ x, ∃ r, s.stage x = .returned r) → ∀ k, k ∈ s.keys ↔
        ∃ x, source x = k ∧ ∃ template, Template.parse k = .ok template)) := by
  obtain ⟨hstart, hcapacity, hnone⟩ :
      (start c).Sound source ∧ c.store.capacity = capacity ∧ c.store.entries = [] :=
    sound_start hc
  constructor
  · intro s hs
    have hsound := hstart.run hs
    refine ⟨hsound.returned, ⟨hsound.store.keys, hsound.store.parsed, ?_⟩, ?_⟩
    · intro n hn
      exact hsound.store.room n ((capacity_run hs).trans (hcapacity.trans hn))
    · intro k t hkeeps
      exact hsound.oneInstance hkeeps
  · intro hunbounded s hs
    have hempty : (start c).Complete source := by
      refine ⟨hcapacity.trans hunbounded, by simp [start], ?_⟩
      simp [start, Store.find?, hnone]
    have hcomplete := hempty.run hstart hs
    have hsound := hstart.run (steps_of_moves hs)
    refine ⟨?_, fun hall k => hcomplete.mem_keys_iff hsound hall⟩
    intro x y i j hxy hx hy
    have hi := hcomplete.held x i hx
    have hj := hcomplete.held y j hy
    rw [hxy, hj] at hi
    exact (Option.some.inj hi).symm

/-- Two calls for one text that miss it in turns and read it both. -/
theorem interleaving_safe_race :
    let s : Shared (Fin 2) := (start .unbounded).advanceAll (fun _ => "a") [0, 1, 0, 1, 1, 0]
    (∃ i, s.stage 0 = .returned (.ok i) ∧ s.stage 1 = .returned (.ok i)) ∧
      ∀ k, k ∈ s.keys ↔ k = "a" := by
  intro s
  have ha : Template.parse "a" = .ok ⟨[.literal "a"]⟩ :=
    Template.parse_of_no_tag rfl (by decide)
  have hreturned : ∀ x, ∃ i, s.stage x = .returned (.ok i) := by
    refine Fin.forall_fin_two.2 ⟨?_, ?_⟩ <;>
      simp [s, advanceAll, advance, start, moveOn, ha, Cache.unbounded, Store.unbounded,
        Store.lookup, Store.find?, Store.insert, Store.makeRoom]
  obtain ⟨hsame, hkeys⟩ := (interleaving_safe (fun _ => "a") .unbounded).2 rfl s
    (moves_advanceAll _ _ _)
  constructor
  · obtain ⟨i, hi⟩ := hreturned 0
    obtain ⟨j, hj⟩ := hreturned 1
    have hij := hsame 0 1 i j rfl hi hj
    exact ⟨i, hi, hij ▸ hj⟩
  · intro k
    rw [hkeys fun x => (hreturned x).elim fun i hi => ⟨_, hi⟩]
    constructor
    · intro h
      obtain ⟨x, hx, -⟩ := h
      exact hx.symm
    · intro h
      exact ⟨0, h.symm, _, h ▸ ha⟩

end BibTemplate.Cache.Shared

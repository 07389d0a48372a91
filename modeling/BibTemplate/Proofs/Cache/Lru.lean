import BibTemplate.Cache.Basic
import BibTemplate.Proofs.Cache.Recency

/-!
# The textbook cache

A cache as a list of results with their keys, the last used first. A use brings its
result to the front, and what does not fit falls off at the end. There are no time
stamps and no order but that of the list.
-/
namespace BibTemplate.Cache

inductive Request where
  | fetch (source : String)
  | render (source : String) (context : Value) (options : RenderOptions)
  | clear

inductive Response where
  | fetched (result : Except SyntaxError Instance)
  | rendered (result : Except SyntaxError String)
  | cleared

def Response.failed : Response → Bool
  | .fetched (.error _) | .rendered (.error _) => true
  | _ => false

theorem failed_fetched_iff {result : Except SyntaxError Instance} :
    (Response.fetched result).failed ↔ ∃ e, result = .error e := by
  cases result <;> simp [Response.failed]

theorem failed_rendered_map (result : Except SyntaxError Instance) (f : Instance → String) :
    (Response.rendered (result.map f)).failed = (Response.fetched result).failed := by
  cases result <;> rfl

/-- One call on a cache. -/
def perform (c : Cache) : Request → Response × Cache
  | .fetch source =>
    let (result, c) := c.fetch source
    (.fetched result, c)
  | .render source context options =>
    let (result, c) := c.render source context options
    (.rendered result, c)
  | .clear => (.cleared, c.clear)

def usesAfter (us : List String) : Request × Response → List String
  | (.clear, _) => []
  | (.fetch source, x) | (.render source _ _, x) => if x.failed then us else us ++ [source]

/-- The texts that calls have used without failing since the last clearing, the latest
last. -/
def uses (h : List (Request × Response)) : List String :=
  h.foldl usesAfter []

structure Lru where
  capacity : Option ℕ
  held : List (String × Instance)
  readings : ℕ

namespace Lru

def empty (capacity : Option ℕ) : Lru := ⟨capacity, [], 0⟩

def find? (s : Lru) (source : String) : Option Instance :=
  (s.held.find? fun p => p.1 = source).map Prod.snd

def use (s : Lru) (source : String) (i : Instance) : Lru :=
  { s with held := Recency.atMost s.capacity ((source, i) :: s.held.filter fun p => p.1 ≠ source) }

def fetch (s : Lru) (source : String) : Except SyntaxError Instance × Lru :=
  match s.find? source with
  | some i => (.ok i, s.use source i)
  | none =>
    match Template.parse source with
    | .error e => (.error e, s)
    | .ok t => (.ok ⟨s.readings, t⟩,
        { s.use source ⟨s.readings, t⟩ with readings := s.readings + 1 })

def step (s : Lru) : Request → Response × Lru
  | .fetch source =>
    let (result, s) := s.fetch source
    (.fetched result, s)
  | .render source context options =>
    let (result, s) := s.fetch source
    (.rendered (result.map (·.template.render context options)), s)
  | .clear => (.cleared, { s with held := [] })

/-- Each call with its response, and the cache after the last one. -/
def run (s : Lru) : List Request → List (Request × Response) × Lru
  | [] => ([], s)
  | r :: rs =>
    let (x, s) := s.step r
    let (h, s) := s.run rs
    ((r, x) :: h, s)

theorem run_append (s : Lru) (rs qs : List Request) :
    s.run (rs ++ qs) =
      ((s.run rs).1 ++ ((s.run rs).2.run qs).1, ((s.run rs).2.run qs).2) := by
  induction rs generalizing s with
  | nil => rfl
  | cons r rs ih =>
    simp only [List.cons_append, run, ih]

theorem requests_run (s : Lru) (rs : List Request) : (s.run rs).1.map Prod.fst = rs := by
  induction rs generalizing s with
  | nil => rfl
  | cons r rs ih =>
    simp only [run, List.map_cons, ih]

theorem capacity_step (s : Lru) (r : Request) : (s.step r).2.capacity = s.capacity := by
  have hfetch : ∀ source, (s.fetch source).2.capacity = s.capacity := by
    intro source
    unfold fetch
    split
    · rfl
    · split <;> rfl
  cases r with
  | fetch source => exact hfetch source
  | render source context options => exact hfetch source
  | clear => rfl

theorem capacity_run (s : Lru) (rs : List Request) : (s.run rs).2.capacity = s.capacity := by
  induction rs generalizing s with
  | nil => rfl
  | cons r rs ih => exact (ih _).trans (s.capacity_step r)

theorem fetch_eq_of_error {s : Lru} {source : String} {e : SyntaxError}
    (h : (s.fetch source).1 = .error e) : (s.fetch source).2 = s := by
  unfold fetch at h ⊢
  split at h
  · cases h
  · split at h
    · rfl
    · cases h

theorem step_eq_of_failed {s : Lru} {r : Request} (h : (s.step r).1.failed) :
    (s.step r).2 = s := by
  cases r with
  | fetch source =>
    obtain ⟨e, he⟩ := failed_fetched_iff.1 h
    exact fetch_eq_of_error he
  | render source context options =>
    have hfetch : (Response.fetched (s.fetch source).1).failed := failed_rendered_map _ _ ▸ h
    obtain ⟨e, he⟩ := failed_fetched_iff.1 hfetch
    exact fetch_eq_of_error he
  | clear => cases h

/-- A call that fails leaves no trace: the calls around it have the responses that they
have without it. -/
theorem run_of_failed {s : Lru} {h₁ h₂ : List (Request × Response)} {r : Request} {x : Response}
    (h : (s.run ((h₁ ++ (r, x) :: h₂).map Prod.fst)).1 = h₁ ++ (r, x) :: h₂) (hx : x.failed) :
    s.run ((h₁ ++ h₂).map Prod.fst) =
      (h₁ ++ h₂, (s.run ((h₁ ++ (r, x) :: h₂).map Prod.fst)).2) := by
  rw [List.map_append, List.map_cons, run_append] at h
  have hlen : (s.run (h₁.map Prod.fst)).1.length = h₁.length := by
    rw [← List.length_map Prod.fst, requests_run, List.length_map]
  obtain ⟨hbefore, hafter⟩ := List.append_inj h hlen
  simp only [run, List.cons.injEq, Prod.mk.injEq, true_and] at hafter
  obtain ⟨hr, hrest⟩ := hafter
  have hstep := step_eq_of_failed (hr ▸ hx)
  rw [hstep] at hrest
  simp only [List.map_append, List.map_cons, run_append, run, hstep, hbefore, hrest]

/-- The cache holds what these uses leave in it. -/
structure Follows (s : Lru) (us : List String) : Prop where
  positive : s.capacity ≠ some 0
  keys : s.held.map Prod.fst = Recency.ofUses s.capacity us
  parsed : ∀ p ∈ s.held, Template.parse p.1 = .ok p.2.template

variable {s : Lru} {us : List String}

theorem follows_empty {capacity : Option ℕ} (h : capacity ≠ some 0) :
    (empty capacity).Follows [] :=
  ⟨h, rfl, by simp [empty]⟩

theorem Follows.nodup (h : s.Follows us) : (s.held.map Prod.fst).Nodup := by
  rw [h.keys]
  exact Recency.nodup_ofUses s.capacity us

theorem Follows.length_le (h : s.Follows us) {n : ℕ} (hn : s.capacity = some n) :
    s.held.length ≤ n := by
  rw [← List.length_map Prod.fst, h.keys, Recency.ofUses_eq]
  exact Recency.length_atMost_le hn _

theorem keys_use (s : Lru) (source : String) (i : Instance) :
    (s.use source i).held.map Prod.fst = Recency.use s.capacity (s.held.map Prod.fst) source := by
  rw [Recency.use_eq, use, Recency.map_atMost, List.map_cons, List.filter_map]
  rfl

theorem Follows.use (h : s.Follows us) {source : String} {i : Instance}
    (hi : Template.parse source = .ok i.template) : (s.use source i).Follows (us ++ [source]) := by
  refine ⟨h.positive, ?_, ?_⟩
  · rw [keys_use, h.keys]
    exact (Recency.ofUses_concat s.capacity us source).symm
  · intro p hp
    have hp := (Recency.atMost_sublist _ _).subset hp
    rcases List.mem_cons.1 hp with rfl | hp
    · exact hi
    · exact h.parsed p (List.mem_of_mem_filter hp)

theorem mem_of_find?_eq_some {source : String} {i : Instance}
    (h : s.find? source = some i) : (source, i) ∈ s.held := by
  obtain ⟨p, hp, rfl⟩ := Option.map_eq_some_iff.1 h
  obtain rfl : p.1 = source := by simpa using List.find?_some hp
  exact List.mem_of_find?_eq_some hp

theorem find?_eq_none_iff {source : String} :
    s.find? source = none ↔ ∀ p ∈ s.held, p.1 ≠ source := by
  simp [find?]

/-- All that fetching can do: fail as the reading of the text does, or use the template
that reading gives. -/
theorem Follows.fetch_cases (h : s.Follows us) (source : String) :
    (∃ e, Template.parse source = .error e ∧ s.fetch source = (.error e, s)) ∨
      ∃ i, Template.parse source = .ok i.template ∧ (s.fetch source).1 = .ok i ∧
        (s.fetch source).2.Follows (us ++ [source]) := by
  unfold fetch
  cases hf : s.find? source with
  | some i =>
    have hi := h.parsed _ (mem_of_find?_eq_some hf)
    exact .inr ⟨i, hi, rfl, h.use hi⟩
  | none =>
    cases hp : Template.parse source with
    | error e => exact .inl ⟨e, rfl, rfl⟩
    | ok t =>
      have hu := h.use (i := ⟨s.readings, t⟩) hp
      exact .inr ⟨⟨s.readings, t⟩, rfl, rfl, ⟨hu.positive, hu.keys, hu.parsed⟩⟩

theorem Follows.fetch (h : s.Follows us) (source : String) :
    (s.fetch source).2.Follows
      (if (Response.fetched (s.fetch source).1).failed then us else us ++ [source]) := by
  rcases h.fetch_cases source with ⟨e, -, he⟩ | ⟨i, -, hi, hu⟩
  · rw [he]
    exact h
  · rw [hi]
    exact hu

theorem Follows.step (h : s.Follows us) (r : Request) :
    (s.step r).2.Follows (usesAfter us (r, (s.step r).1)) := by
  cases r with
  | fetch source => exact h.fetch source
  | render source context options =>
    simp only [Lru.step, usesAfter, failed_rendered_map]
    exact h.fetch source
  | clear => exact ⟨h.positive, rfl, by simp [Lru.step]⟩

theorem Follows.run (h : s.Follows us) (rs : List Request) :
    (s.run rs).2.Follows ((s.run rs).1.foldl usesAfter us) := by
  induction rs generalizing s us with
  | nil => exact h
  | cons r rs ih => exact ih (h.step r)

end Lru

end BibTemplate.Cache

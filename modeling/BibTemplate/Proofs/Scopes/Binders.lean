import BibTemplate.Proofs.Render.Resolution
import BibTemplate.Proofs.Scopes.Histories
import BibTemplate.Proofs.Text.Trimming

/-!
# The scope that decides

The innermost scope that answers the first segment of a path decides where the path leads.
The scopes outside it and those inside it have no say, and no later segment falls back on
another scope. This holds of the scopes after every history.
-/
namespace BibTemplate

/-- What a scope answers to a name. The element of a list answers the loop names by its
place, and all other names by its value. -/
inductive Scope.Answers : Scope → String → Value → Prop
  | place {v a : Value} {p : LoopPosition} {name : String} :
      p.binding? name = some a → Answers ⟨v, some p⟩ name a
  | element {v a : Value} {p : LoopPosition} {name : String} :
      name ∉ loopNames → v.step? name = some a → Answers ⟨v, some p⟩ name a
  | value {v a : Value} {name : String} :
      v.step? name = some a → Answers ⟨v, none⟩ name a

/-- One step for each segment leads from one value to the other. -/
inductive Value.Leads : Value → List String → Value → Prop
  | here {v : Value} : Leads v [] v
  | step {v w u : Value} {segment : String} {segments : List String} :
      v.step? segment = some w → Leads w segments u → Leads v (segment :: segments) u

/-- The texts between the points of a path: joined by points they give the path, and they hold
no point themselves. -/
structure IsDotted (path : String) (segments : List String) : Prop where
  joined : ".".intercalate segments = path
  pointless : ∀ segment ∈ segments, '.' ∉ segment.toList

/-- The scope answers the name, and the scopes inside it do not. -/
structure Scopes.Decides (s : Scopes) (name : String) (inside : List Scope) (scope : Scope)
    (outside : List Scope) : Prop where
  scopes : s.toList = inside ++ scope :: outside
  answers : ∃ a, scope.Answers name a
  silent : ∀ other ∈ inside, ∀ a, ¬ other.Answers name a

variable {scope : Scope} {name path : String} {v w : Value} {segments : List String}

theorem LoopPosition.exists_binding?_of_mem (p : LoopPosition) (h : name ∈ loopNames) :
    ∃ a, p.binding? name = some a := by
  simp only [loopNames, List.mem_cons, List.not_mem_nil, or_false] at h
  rcases h with rfl | rfl | rfl | rfl | rfl | rfl | rfl <;> exact ⟨_, rfl⟩

theorem Scope.lookup?_eq_some_iff : scope.lookup? name = some v ↔ scope.Answers name v := by
  obtain ⟨value, position⟩ := scope
  rw [lookup?]
  cases position with
  | none =>
    rw [Option.bind_none, Option.none_or]
    exact ⟨.value, fun h => by cases h; assumption⟩
  | some p =>
    rw [Option.bind_some]
    by_cases hname : name ∈ loopNames
    · obtain ⟨b, hb⟩ := p.exists_binding?_of_mem hname
      rw [hb, Option.some_or, ← hb]
      constructor
      · exact .place
      · intro h
        cases h with
        | place h => exact h
        | element hnot _ => exact absurd hname hnot
    · have hb := p.binding?_of_not_mem hname
      rw [hb, Option.none_or]
      constructor
      · exact .element hname
      · intro h
        cases h with
        | place h => simp [hb] at h
        | element _ h => exact h

theorem Scope.lookup?_eq_none_iff : scope.lookup? name = none ↔ ∀ a, ¬ scope.Answers name a := by
  simp only [Option.eq_none_iff_forall_ne_some, ne_eq, lookup?_eq_some_iff]

theorem Value.follow?_eq_some_iff : v.follow? segments = some w ↔ v.Leads segments w := by
  induction segments generalizing v with
  | nil =>
    rw [follow?_nil, Option.some.injEq]
    constructor
    · rintro rfl
      exact .here
    · intro h
      cases h
      rfl
  | cons segment segments ih =>
    rw [follow?_cons, Option.bind_eq_some_iff]
    constructor
    · rintro ⟨u, hstep, hrest⟩
      exact .step hstep (ih.1 hrest)
    · intro h
      cases h with
      | step hstep hrest => exact ⟨_, hstep, ih.2 hrest⟩

theorem isDotted_allSegments (path : String) : IsDotted path (allSegments path) := by
  constructor
  · rw [← String.toList_inj, String.toList_intercalate, allSegments, List.map_map]
    have hlists : String.toList ∘ String.ofList = id := funext fun _ => String.toList_ofList
    rw [hlists, List.map_id]
    exact List.intercalate_splitOn '.'
  · intro segment h
    obtain ⟨part, hpart, rfl⟩ := List.mem_map.1 h
    rw [String.toList_ofList]
    exact Text.not_mem_of_mem_splitOn hpart

theorem IsDotted.eq_allSegments (h : IsDotted path segments) (hne : segments ≠ []) :
    segments = allSegments path := by
  have hlists : String.ofList ∘ String.toList = id := funext fun _ => String.ofList_toList
  have hparts : ∀ part ∈ segments.map String.toList, '.' ∉ part := by
    rw [List.forall_mem_map]
    exact h.pointless
  rw [allSegments, ← h.joined, String.toList_intercalate]
  have hsplit := List.splitOn_intercalate '.' hparts (by simpa using hne)
  have hpoint : ".".toList = ['.'] := rfl
  rw [hpoint, hsplit, List.map_map, hlists, List.map_id]

namespace Scopes

open Operation

variable {s t : Scopes} {inside inside' outside outside' : List Scope} {segment : String}

theorem lookup?_eq_some_iff :
    s.lookup? name = some v ↔
      ∃ inside scope outside, s.Decides name inside scope outside ∧ scope.Answers name v := by
  rw [lookup?, List.findSome?_eq_some_iff]
  constructor
  · rintro ⟨inside, scope, outside, hplace, hfound, hsilent⟩
    have hanswer := Scope.lookup?_eq_some_iff.1 hfound
    have hinside : ∀ other ∈ inside, ∀ a, ¬ other.Answers name a :=
      fun other h => Scope.lookup?_eq_none_iff.1 (hsilent other h)
    exact ⟨inside, scope, outside, ⟨hplace, ⟨v, hanswer⟩, hinside⟩, hanswer⟩
  · rintro ⟨inside, scope, outside, hdecides, hanswer⟩
    refine ⟨inside, scope, outside, hdecides.scopes, Scope.lookup?_eq_some_iff.2 hanswer, ?_⟩
    exact fun other h => Scope.lookup?_eq_none_iff.2 (hdecides.silent other h)

theorem Decides.lookup?_eq (h : s.Decides name inside scope outside) :
    s.lookup? name = scope.lookup? name := by
  obtain ⟨a, ha⟩ := h.answers
  rw [Scope.lookup?_eq_some_iff.2 ha, lookup?_eq_some_iff]
  exact ⟨inside, scope, outside, h, ha⟩

/-- The scope decides as well among others, if none has come inside it. -/
theorem Decides.of_subset (h : s.Decides name inside scope outside) (hsub : inside' ⊆ inside)
    (ht : t.toList = inside' ++ scope :: outside') : t.Decides name inside' scope outside' :=
  ⟨ht, h.answers, fun other hother => h.silent other (hsub hother)⟩

theorem resolve?_of_isDotted {first : String} {rest : List String} (s : Scopes) (h : path ≠ ".")
    (hpath : IsDotted path (first :: rest)) :
    s.resolve? path = (s.lookup? first).bind (·.follow? rest) := by
  have hsegments := hpath.eq_allSegments (List.cons_ne_nil first rest)
  rw [allSegments_eq_cons, List.cons.injEq] at hsegments
  rw [s.resolve?_eq h, ← hsegments.1, ← hsegments.2]

theorem resolve?_eq_some_iff {first : String} {rest : List String} (h : path ≠ ".")
    (hpath : IsDotted path (first :: rest)) :
    s.resolve? path = some v ↔ ∃ inside scope outside a,
      s.Decides first inside scope outside ∧ scope.Answers first a ∧ a.Leads rest v := by
  rw [s.resolve?_of_isDotted h hpath, Option.bind_eq_some_iff]
  constructor
  · rintro ⟨a, hlookup, hfollow⟩
    obtain ⟨inside, scope, outside, hdecides, ha⟩ := lookup?_eq_some_iff.1 hlookup
    exact ⟨inside, scope, outside, a, hdecides, ha, Value.follow?_eq_some_iff.1 hfollow⟩
  · rintro ⟨inside, scope, outside, a, hdecides, ha, hleads⟩
    exact ⟨a, lookup?_eq_some_iff.2 ⟨inside, scope, outside, hdecides, ha⟩,
      Value.follow?_eq_some_iff.2 hleads⟩

theorem resolve?_step (s : Scopes) (h : path ≠ ".") (hsegment : '.' ∉ segment.toList)
    (hne : path ≠ "" ∨ segment ≠ "") :
    s.resolve? (path ++ "." ++ segment) = (s.resolve? path).bind (·.step? segment) := by
  have happend : path ++ "." ++ segment ≠ "." := by
    rwa [ne_eq, append_eq_current_iff, not_and_or]
  rw [s.resolve?_append h happend, allSegments_of_not_mem hsegment]
  simp only [Value.follow?_cons, Value.follow?_nil, Option.bind_fun_some]

/-- The scopes after a history are the root and what is standing, and a pop without a push to
undo changes nothing. The last of them is the current value. Any other path leads by steps
from what the innermost scope that answers its first segment answers, and nowhere if there is
no such scope or no such step. So it leads to the same value in all scopes that have this one
and none inside it but some of those that were there, and one segment more is one step more. -/
theorem resolve?_innermost (root : Value) (history : List Operation) :
    let s := (ofRoot root).runAll history
    s.toList = (⟨root, none⟩ :: standing history).reverse ∧
    (standing history = [] → (ofRoot root).runAll (history ++ [.pop]) = s) ∧
    s.resolve? "." =
      some ((⟨root, none⟩ :: standing history).getLast (List.cons_ne_nil _ _)).value ∧
    (∀ path, ∃ first rest, IsDotted path (first :: rest)) ∧
    (∀ path first rest, path ≠ "." → IsDotted path (first :: rest) →
      (∀ v, s.resolve? path = some v ↔ ∃ inside scope outside a,
        s.Decides first inside scope outside ∧ scope.Answers first a ∧ a.Leads rest v) ∧
      ∀ inside scope outside, s.Decides first inside scope outside →
        ∀ (t : Scopes) (inside' outside' : List Scope), inside' ⊆ inside →
          t.toList = inside' ++ scope :: outside' → t.resolve? path = s.resolve? path) ∧
    ∀ path segment, path ≠ "." → '.' ∉ segment.toList → (path ≠ "" ∨ segment ≠ "") →
      s.resolve? (path ++ "." ++ segment) = (s.resolve? path).bind (·.step? segment) := by
  intro s
  refine ⟨toList_runAll_ofRoot root history, runAll_ofRoot_concat_pop root, ?_, ?_, ?_, ?_⟩
  · rw [resolve?_current, current_runAll_ofRoot]
  · intro path
    exact ⟨firstSegment path, (allSegments path).tail,
      allSegments_eq_cons path ▸ isDotted_allSegments path⟩
  · intro path first rest hne hpath
    refine ⟨fun v => resolve?_eq_some_iff hne hpath, ?_⟩
    intro inside scope outside hdecides t inside' outside' hsub ht
    rw [t.resolve?_of_isDotted hne hpath, s.resolve?_of_isDotted hne hpath,
      (hdecides.of_subset hsub ht).lookup?_eq, hdecides.lookup?_eq]
  · intro path segment hne hsegment hboth
    exact s.resolve?_step hne hsegment hboth

/-- A pop that finds the root alone, a push that is undone, and a loop inside an object. The title
is null in the object, and it stays so around another root and without the loop. The place of
the element hides its member of the same name. -/
theorem resolve?_innermost_loop :
    let journal : Value := .object [("journal", .object [("title", .null)])]
    let item : Value := .object [("@index", .string "own")]
    let root : Value := .object [("journal", .string "Nature")]
    let history : List Operation :=
      [.pop, .push root, .pop, .push journal, .pushItem item ⟨1, 2⟩]
    let s := (ofRoot root).runAll history
    standing history = [⟨journal, none⟩, ⟨item, some ⟨1, 2⟩⟩] ∧
      s.resolve? "." = some item ∧
      s.resolve? "@index" = some (.integer 1) ∧
      s.resolve? "journal.title" = some .null ∧
      ((ofRoot (.list [])).push journal).resolve? "journal.title" = s.resolve? "journal.title" ∧
      s.resolve? ("journal" ++ "." ++ "title") = (s.resolve? "journal").bind (·.step? "title") := by
  intro journal item root history s
  have hstanding : standing history = [⟨journal, none⟩, ⟨item, some ⟨1, 2⟩⟩] := rfl
  obtain ⟨hlist, -, hcurrent, -, hpaths, hstep⟩ := resolve?_innermost root history
  rw [hstanding] at hlist
  have hindex : s.Decides "@index" [] ⟨item, some ⟨1, 2⟩⟩ [⟨journal, none⟩, ⟨root, none⟩] :=
    ⟨hlist, ⟨.integer 1, .place rfl⟩, List.forall_mem_nil _⟩
  have hjournal : s.Decides "journal" [⟨item, some ⟨1, 2⟩⟩] ⟨journal, none⟩ [⟨root, none⟩] := by
    refine ⟨hlist, ⟨_, .value rfl⟩, ?_⟩
    rw [List.forall_mem_singleton]
    exact Scope.lookup?_eq_none_iff.1 rfl
  obtain ⟨hname, -⟩ := hpaths "@index" "@index" [] (by decide) ⟨rfl, by decide⟩
  obtain ⟨htitle, hothers⟩ :=
    hpaths "journal.title" "journal" ["title"] (by decide) ⟨by decide, by decide⟩
  refine ⟨hstanding, hcurrent, ?_, ?_, ?_, ?_⟩
  · exact (hname _).2 ⟨_, _, _, _, hindex, .place rfl, .here⟩
  · exact (htitle _).2 ⟨_, _, _, _, hjournal, .value rfl, .step rfl .here⟩
  · exact hothers _ _ _ hjournal _ [] [⟨.list [], none⟩] (List.nil_subset _) rfl
  · exact hstep "journal" "title" (by decide) (by decide) (.inl (by decide))

end Scopes

end BibTemplate

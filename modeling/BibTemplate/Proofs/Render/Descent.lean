import BibTemplate.Proofs.Render.Clauses
import BibTemplate.Proofs.Render.Resolution

/-!
# Sections and dotted paths

What a placeholder inside a section finds in the value that the section has entered, a
placeholder outside finds by the path that goes on after the path of the section. For a
list there is one such path for each element, with the index of the element in between.
-/
namespace BibTemplate

variable {s : Scopes} {p q k : String} {v : Value} {items : List Value}

/-- The value is an object with a member of that key. -/
def Value.HasKey (v : Value) (key : String) : Prop :=
  ∃ ms : Members, v = .object ms ∧ key ∈ ms.map Prod.fst

/-- The path is a key without points, or goes on after one. -/
def BeginsWith (path key : String) : Prop :=
  '.' ∉ key.toList ∧ (path = key ∨ ∃ rest, path = key ++ "." ++ rest)

theorem Value.HasKey.isSome_step? (h : v.HasKey k) : (v.step? k).isSome := by
  obtain ⟨ms, rfl, hk⟩ := h
  obtain ⟨m, hm, rfl⟩ := List.mem_map.1 hk
  rw [step?_object, Members.get?, Option.isSome_map, List.find?_isSome]
  exact ⟨m, hm, by simp⟩

theorem BeginsWith.firstSegment_eq (h : BeginsWith q k) : firstSegment q = k := by
  obtain ⟨hpoint, hq⟩ := h
  rcases hq with rfl | ⟨rest, rfl⟩
  · exact firstSegment_of_not_mem hpoint
  · rw [(uncons_allSegments_append k rest).1, firstSegment_of_not_mem hpoint]

theorem Scopes.resolve?_push_eq_append (h : s.resolve? p = some v) (hp : p ≠ "")
    (hcurrent : p ≠ ".") (hq : q ≠ ".") (hknown : (v.step? (firstSegment q)).isSome) :
    (s.push v).resolve? q = s.resolve? (p ++ "." ++ q) := by
  rw [s.resolve?_push hq hknown, s.resolve?_append hcurrent (append_ne_current hp q), h,
    Option.bind_some]

theorem Scopes.textAt_congr {t : Scopes} (h : s.resolve? p = t.resolve? q) :
    s.textAt p = t.textAt q := by
  rw [textAt, textAt, h]

theorem Node.evalAll_placeholder (s : Scopes) (path : String) (filters : List Filter) :
    evalAll [.placeholder path filters] s = Filter.applyAll filters (s.textAt path) := by
  rw [evalAll_singleton, eval]

theorem Node.evalAll_object_section (h : s.resolve? p = some v) (hp : p ≠ "")
    (hcurrent : p ≠ ".") (hkey : v.HasKey k) (hbegins : BeginsWith q k) (hq : q ≠ ".")
    (filters : List Filter) :
    evalAll [.block p false [.placeholder q filters]] s =
      evalAll [.placeholder (p ++ "." ++ q) filters] s := by
  have hknown : (v.step? (firstSegment q)).isSome := by
    rw [hbegins.firstSegment_eq]
    exact hkey.isSome_step?
  have htext : (s.push v).textAt q = s.textAt (p ++ "." ++ q) :=
    Scopes.textAt_congr (Scopes.resolve?_push_eq_append h hp hcurrent hq hknown)
  obtain ⟨ms, rfl, -⟩ := hkey
  rw [denotation_evalAll.object _ h, evalAll_placeholder, evalAll_placeholder, htext]

/-- The placeholder of a section over a list, against one path for each element. -/
theorem Node.evalAll_list_section {path : ℕ → String} (h : s.resolve? p = some (.list items))
    (hpath : ∀ i v, items[i]? = some v →
      (s.pushItem v ⟨i, items.length⟩).resolve? q = s.resolve? (path i))
    (filters : List Filter) :
    evalAll [.block p false [.placeholder q filters]] s =
      evalAll ((List.range items.length).map fun i => .placeholder (path i) filters) s := by
  have hrow : ∀ is : List ℕ, evalAll (is.map fun i => .placeholder (path i) filters) s =
      .join (is.map fun i => Filter.applyAll filters (s.textAt (path i))) := by
    intro is
    induction is with
    | nil => rfl
    | cons i is ih => rw [List.map_cons, evalAll, ih, List.map_cons, String.join_cons, eval]
  rw [denotation_evalAll.list _ h, hrow]
  refine congrArg String.join (List.ext_getElem (by simp) fun i hi _ => ?_)
  have hlt : i < items.length := by simpa using hi
  simp only [List.getElem_map, List.getElem_zipIdx, List.getElem_range, Nat.zero_add,
    evalAll_placeholder]
  rw [Scopes.textAt_congr (hpath i items[i] (List.getElem?_eq_getElem hlt))]

theorem Scopes.resolve?_pushItem_eq_element {i : ℕ} (h : s.resolve? p = some (.list items))
    (hp : p ≠ "") (hcurrent : p ≠ ".") (hi : i < Decimal.wordSize) (hv : items[i]? = some v) :
    (s.pushItem v ⟨i, items.length⟩).resolve? "." = s.resolve? (p ++ "." ++ i.repr) := by
  rw [resolve?_element h hp hcurrent hi, hv]
  rfl

theorem Scopes.resolve?_pushItem_eq_member {i : ℕ} (h : s.resolve? p = some (.list items))
    (hp : p ≠ "") (hcurrent : p ≠ ".") (hi : i < Decimal.wordSize) (hv : items[i]? = some v)
    (hkey : v.HasKey k) (hloop : k ∉ loopNames) (hbegins : BeginsWith q k) (hq : q ≠ ".") :
    (s.pushItem v ⟨i, items.length⟩).resolve? q =
      s.resolve? (p ++ "." ++ i.repr ++ "." ++ q) := by
  have hfirst := hbegins.firstSegment_eq
  have hknown : (v.step? (firstSegment q)).isSome := hfirst ▸ hkey.isSome_step?
  have helement : s.resolve? (p ++ "." ++ i.repr) = some v := by
    rw [resolve?_element h hp hcurrent hi, hv]
  have hne : p ++ "." ++ i.repr ≠ "" := by simp
  rw [s.resolve?_pushItem _ hq (hfirst ▸ hloop) hknown,
    s.resolve?_append (append_ne_current hp _) (append_ne_current hne q), helement,
    Option.bind_some]

/-- A section over an object or a list, with one placeholder in it, shows what the dotted
paths show. An index is read as a 64-bit number, which no list in memory is too long for. -/
theorem Node.walkAll_section_eq_dotted (w : Walk) (hp : p ≠ "") (hcurrent : p ≠ ".")
    (filters : List Filter) :
    (∀ v k q, w.scopes.resolve? p = some v → v.HasKey k → BeginsWith q k → q ≠ "." →
      walkAll [.block p false [.placeholder q filters]] w =
        walkAll [.placeholder (p ++ "." ++ q) filters] w) ∧
    (∀ items, w.scopes.resolve? p = some (.list items) → items.length ≤ Decimal.wordSize →
      walkAll [.block p false [.placeholder "." filters]] w =
        walkAll ((List.range items.length).map fun i =>
          .placeholder (p ++ "." ++ i.repr) filters) w ∧
      ∀ k q, (∀ v ∈ items, v.HasKey k) → k ∉ loopNames → BeginsWith q k → q ≠ "." →
        walkAll [.block p false [.placeholder q filters]] w =
          walkAll ((List.range items.length).map fun i =>
            .placeholder (p ++ "." ++ i.repr ++ "." ++ q) filters) w) := by
  simp only [walkAll_eq]
  refine ⟨?_, ?_⟩
  · intro v k q h hkey hbegins hq
    rw [evalAll_object_section h hp hcurrent hkey hbegins hq]
  · intro items h hlength
    have hword : ∀ {i v}, items[i]? = some v → i < Decimal.wordSize := by
      intro i v hv
      obtain ⟨hi, -⟩ := List.getElem?_eq_some_iff.1 hv
      omega
    refine ⟨?_, ?_⟩
    · rw [evalAll_list_section h]
      intro i v hv
      exact Scopes.resolve?_pushItem_eq_element h hp hcurrent (hword hv) hv
    · intro k q hkeys hloop hbegins hq
      rw [evalAll_list_section h]
      intro i v hv
      exact Scopes.resolve?_pushItem_eq_member h hp hcurrent (hword hv) hv
        (hkeys v (List.mem_of_getElem? hv)) hloop hbegins hq

/-- Members of the elements of a list, two segments deep. -/
theorem Node.walkAll_section_eq_dotted_authors :
    let smith : Value := .object [("name", .object [("family", .string "Smith")])]
    let ng : Value := .object [("name", .object [("family", .string "Ng")])]
    let root : Value := .object [("authors", .list [smith, ng])]
    let w : Walk := ⟨.ofRoot root, "by "⟩
    walkAll [.block "authors" false [.placeholder "name.family" [.uppercase]]] w =
      walkAll [.placeholder "authors.0.name.family" [.uppercase],
        .placeholder "authors.1.name.family" [.uppercase]] w := by
  intro smith ng root w
  have hlist : w.scopes.resolve? "authors" = some (.list [smith, ng]) := rfl
  have hkeys : ∀ v ∈ [smith, ng], v.HasKey "name" := by
    simp only [List.forall_mem_cons, List.not_mem_nil, false_imp_iff, implies_true, and_true]
    exact ⟨⟨_, rfl, by decide⟩, _, rfl, by decide⟩
  have hbegins : BeginsWith "name.family" "name" := ⟨by decide, .inr ⟨"family", by decide⟩⟩
  obtain ⟨-, hsections⟩ := walkAll_section_eq_dotted w (p := "authors") (by decide) (by decide)
    [.uppercase]
  obtain ⟨-, hmembers⟩ := hsections [smith, ng] hlist (by decide)
  have hfirst : "authors" ++ "." ++ (0 : ℕ).repr ++ "." ++ "name.family" =
      "authors.0.name.family" := by decide
  have hsecond : "authors" ++ "." ++ (1 : ℕ).repr ++ "." ++ "name.family" =
      "authors.1.name.family" := by decide
  rw [hmembers "name" "name.family" hkeys (by decide) hbegins (by decide), ← hfirst, ← hsecond]
  rfl

end BibTemplate

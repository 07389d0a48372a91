import BibTemplate.Proofs.Outcomes
import BibTemplate.Proofs.Text.Trimming
import BibTemplate.Template.Tag

/-!
# What the body of a tag says

The three kinds of tags, each said without the reading: a section tag is its mark and a
path, a placeholder is a path and known filters with bars between them. Reading a body
gives a tag exactly when it is of the kind of that tag.
-/
namespace BibTemplate.Tag

/-- The first character of a tag that opens a section. -/
def mark (negated : Bool) : Char := if negated then '^' else '#'

/-- The first characters that set the tags of sections apart. -/
def marks : List Char := ['#', '^', '/']

/-- The trimmed body is the mark and a path, which is not empty and has no bar. -/
def IsSection (m : Char) (body : List Char) (path : String) : Prop :=
  ∃ rest, Text.trim body = m :: rest ∧ Text.trim rest = path.toList ∧ path.toList ≠ [] ∧
    '|' ∉ path.toList

/-- The body is a path that is not empty and the names of filters, with bars between
them; white space around each of them does not count, and no mark comes first. -/
def IsPlaceholder (body : List Char) (path : String) (filters : List Filter) : Prop :=
  ∃ first names, ['|'].intercalate (first :: names) = body ∧ (∀ part ∈ first :: names, '|' ∉ part) ∧
    (∀ m ∈ marks, (Text.trim body).head? ≠ some m) ∧
    Text.trim first = path.toList ∧ path.toList ≠ [] ∧
    List.Forall₂ (fun name f => Filter.ofName? (.ofList (Text.trim name)) = some f) names filters

theorem isBlank_bar : Text.isBlank '|' = false := by decide

theorem sectionPath_eq_ok_iff {s : List Char} {path : String} :
    sectionPath s = .ok path ↔
      Text.trim s = path.toList ∧ path.toList ≠ [] ∧ '|' ∉ path.toList := by
  have hp : Text.trim s = path.toList ↔ String.ofList (Text.trim s) = path := by
    rw [← String.toList_inj, String.toList_ofList]
  simp only [sectionPath, List.isEmpty_iff, List.contains_iff_mem]
  split
  · rename_i he
    constructor
    · intro h
      cases h
    · intro h
      obtain ⟨h, hne, -⟩ := h
      exact absurd (h ▸ he) hne
  · rename_i he
    split
    · rename_i hb
      constructor
      · intro h
        cases h
      · intro h
        obtain ⟨h, -, hn⟩ := h
        exact absurd (h ▸ hb) hn
    · rename_i hb
      rw [hp, Except.ok.injEq]
      constructor
      · intro h
        subst h
        rw [String.toList_ofList]
        exact ⟨rfl, he, hb⟩
      · exact fun h => h.1

theorem filter_eq_ok_iff {name : List Char} {f : Filter} :
    filter name = .ok f ↔ Filter.ofName? (.ofList name) = some f := by
  unfold filter
  split <;> simp_all

theorem ofParts_eq_ok_iff {part : List Char} {parts : List (List Char)} {tag : Tag} :
    ofParts (part :: parts) = .ok tag ↔
      ∃ filters, tag = .placeholder (.ofList part) filters ∧ part ≠ [] ∧
        List.Forall₂ (fun name f => Filter.ofName? (.ofList name) = some f) parts filters := by
  simp only [ofParts, List.isEmpty_iff]
  split
  · rename_i he
    simp [he]
  · rename_i he
    simp only [map_eq_ok_iff, mapM_eq_ok_iff, filter_eq_ok_iff]
    constructor
    · intro h
      obtain ⟨fs, hfs, rfl⟩ := h
      exact ⟨fs, rfl, he, hfs⟩
    · intro h
      obtain ⟨fs, rfl, -, hfs⟩ := h
      exact ⟨fs, hfs, rfl⟩

/-- Trimming a body makes no difference to its trimmed parts. -/
theorem map_trim_splitOn_trim (body : List Char) :
    ((Text.trim body).splitOn '|').map Text.trim = (body.splitOn '|').map Text.trim :=
  Text.map_strip_splitOn_strip isBlank_bar body

/-- A body is a placeholder just when the parts of the trimmed body are those of one. -/
theorem isPlaceholder_iff {body : List Char} {path : String} {filters : List Filter} :
    IsPlaceholder body path filters ↔ (∀ m ∈ marks, (Text.trim body).head? ≠ some m) ∧
      ofParts (((Text.trim body).splitOn '|').map Text.trim) =
        .ok (.placeholder path filters) := by
  rw [map_trim_splitOn_trim]
  constructor
  · intro h
    obtain ⟨first, names, rfl, hbar, hm, hf, hne, hfs⟩ := h
    refine ⟨hm, ?_⟩
    rw [List.splitOn_intercalate '|' hbar (by simp), List.map_cons, ofParts_eq_ok_iff]
    refine ⟨filters, ?_, hf ▸ hne, List.forall₂_map_left_iff.2 hfs⟩
    rw [hf, String.ofList_toList]
  · intro h
    obtain ⟨hm, hp⟩ := h
    obtain ⟨first, names, hparts⟩ := List.exists_cons_of_ne_nil (List.splitOn_ne_nil '|' body)
    rw [hparts, List.map_cons, ofParts_eq_ok_iff] at hp
    obtain ⟨fs, htag, hne, hfs⟩ := hp
    obtain ⟨rfl, rfl⟩ : path = .ofList (Text.trim first) ∧ filters = fs := by
      simpa using htag
    refine ⟨first, names, ?_, ?_, hm, ?_, ?_, List.forall₂_map_left_iff.1 hfs⟩
    · rw [← hparts, List.intercalate_splitOn]
    · intro part hpart
      exact Text.not_mem_of_mem_splitOn (hparts ▸ hpart)
    · rw [String.toList_ofList]
    · rwa [String.toList_ofList]

/-- The kind of tag that a body is. -/
def IsBody (body : List Char) : Tag → Prop
  | .placeholder path filters => IsPlaceholder body path filters
  | .opening negated path => IsSection (mark negated) body path
  | .closing path => IsSection '/' body path

theorem isSection_iff {m n : Char} {body rest : List Char} {path : String}
    (h : Text.trim body = m :: rest) :
    IsSection n body path ↔ n = m ∧ sectionPath rest = .ok path := by
  rw [sectionPath_eq_ok_iff]
  constructor
  · intro h'
    obtain ⟨r, hr, hp⟩ := h'
    obtain ⟨rfl, rfl⟩ : m = n ∧ rest = r := by simpa using h.symm.trans hr
    exact ⟨rfl, hp⟩
  · intro h'
    obtain ⟨rfl, hp⟩ := h'
    exact ⟨rest, h, hp⟩

theorem not_isPlaceholder {m : Char} {body rest : List Char} {path : String}
    {filters : List Filter} (hm : m ∈ marks) (h : Text.trim body = m :: rest) :
    ¬ IsPlaceholder body path filters := by
  intro h'
  obtain ⟨-, -, -, -, hn, -⟩ := h'
  exact hn m hm (by simp [h])

theorem ofBody_cases (body : List Char) :
    (∃ rest, Text.trim body = '#' :: rest ∧
      ofBody body = (sectionPath rest).map (opening false)) ∨
    (∃ rest, Text.trim body = '^' :: rest ∧
      ofBody body = (sectionPath rest).map (opening true)) ∨
    (∃ rest, Text.trim body = '/' :: rest ∧
      ofBody body = (sectionPath rest).map closing) ∨
    ((∀ m ∈ marks, (Text.trim body).head? ≠ some m) ∧
      ofBody body = ofParts (((Text.trim body).splitOn '|').map Text.trim)) := by
  unfold ofBody
  split
  · rename_i rest h
    exact .inl ⟨rest, h, rfl⟩
  · rename_i rest h
    exact .inr (.inl ⟨rest, h, rfl⟩)
  · rename_i rest h
    exact .inr (.inr (.inl ⟨rest, h, rfl⟩))
  · rename_i h₁ h₂ h₃
    refine .inr (.inr (.inr ⟨?_, rfl⟩))
    intro m hm hh
    obtain ⟨r, hr⟩ := List.head?_eq_some_iff.1 hh
    simp only [marks, List.mem_cons, List.not_mem_nil, or_false] at hm
    rcases hm with rfl | rfl | rfl
    · exact h₁ r hr
    · exact h₂ r hr
    · exact h₃ r hr

/-- Reading a body gives a tag just when the body is of the kind of that tag. -/
theorem ofBody_eq_ok_iff {body : List Char} {tag : Tag} :
    ofBody body = .ok tag ↔ IsBody body tag := by
  rcases ofBody_cases body with h | h | h | h
  case inl | inr.inl | inr.inr.inl =>
    obtain ⟨rest, h, he⟩ := h
    rw [he, map_eq_ok_iff]
    cases tag with
    | placeholder path filters => simp [IsBody, not_isPlaceholder (by decide) h]
    | opening negated path => cases negated <;> simp [IsBody, isSection_iff h, mark]
    | closing path => simp [IsBody, isSection_iff h]
  case inr.inr.inr =>
    obtain ⟨h, he⟩ := h
    obtain ⟨part, parts, hp⟩ := List.exists_cons_of_ne_nil
      (List.splitOn_ne_nil '|' (Text.trim body))
    have hsec : ∀ m ∈ marks, ∀ path, ¬ IsSection m body path := by
      intro m hm path hsection
      obtain ⟨rest, hr, -⟩ := hsection
      exact h m hm (by simp [hr])
    rw [he]
    cases tag with
    | placeholder path filters => exact (isPlaceholder_iff.trans (and_iff_right h)).symm
    | opening negated path =>
      have hm : mark negated ∈ marks := by cases negated <;> decide
      simp [IsBody, hp, ofParts_eq_ok_iff, hsec _ hm]
    | closing path => simp [IsBody, hp, ofParts_eq_ok_iff, hsec '/' (by decide)]

end BibTemplate.Tag

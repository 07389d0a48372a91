import BibTemplate.Proofs.Template.TagBody

/-!
# What is wrong with the body of a tag

Three defects can be seen in a tag alone: nothing to look up, a bar in the path of a
section, and a filter that there is not. Each is said without the reading, and a body is
refused only for one that it has.
-/
namespace BibTemplate.Tag

/-- White space and nothing else. -/
def Blank (s : List Char) : Prop := ∀ c ∈ s, Text.isBlank c = true

/-- No mark comes first, so the body is a placeholder if it is a tag at all. -/
def Unmarked (body : List Char) : Prop := ∀ m ∈ marks, (Text.trim body).head? ≠ some m

/-- After its mark, or in front of its first bar if it has no mark, the body is blank. -/
def IsEmpty (body : List Char) : Prop :=
  (∃ m ∈ marks, ∃ rest, Text.trim body = m :: rest ∧ Blank rest) ∨
    Unmarked body ∧ ∃ first others, body.splitOn '|' = first :: others ∧ Blank first

/-- The body is a mark and a path in which there is a bar. -/
def IsFiltered (body : List Char) (path : String) : Prop :=
  ∃ m ∈ marks, ∃ rest, Text.trim body = m :: rest ∧ Text.trim rest = path.toList ∧
    '|' ∈ path.toList

/-- The body is a path and the names of filters, and this name is the first of them that no
filter has. -/
def IsUnknown (body : List Char) (name : String) : Prop :=
  Unmarked body ∧ ∃ first known bad others,
    body.splitOn '|' = first :: (known ++ bad :: others) ∧ ¬ Blank first ∧
      (∀ part ∈ known, ∃ f, Filter.ofName? (.ofList (Text.trim part)) = some f) ∧
      Text.trim bad = name.toList ∧ Filter.ofName? name = none

/-- The body has a defect that is seen in it alone. -/
def HasDefect (body : List Char) : Defect → Prop
  | .emptyTag => IsEmpty body
  | .filterOnSection path => IsFiltered body path
  | .unknownFilter name => IsUnknown body name
  | _ => False

theorem trim_eq_nil_iff {s : List Char} : Text.trim s = [] ↔ Blank s := by
  rw [Text.trim, Text.strip_eq_rdropWhile, List.rdropWhile_eq_nil_iff]
  constructor
  · intro h
    -- What is left behind the blank characters in front does not begin with one.
    refine List.dropWhile_eq_nil_iff.1 ?_
    cases hd : s.dropWhile Text.isBlank with
    | nil => rfl
    | cons c t =>
      have hc : Text.isBlank c = false := Text.head?_dropWhile_eq_false (s := s) (by rw [hd]; rfl)
      rw [h c (by simp [hd])] at hc
      cases hc
  · intro h
    rw [List.dropWhile_eq_nil_iff.2 h]
    simp

theorem hasDefect_of_sectionPath {m : Char} {body rest : List Char} {defect : Defect}
    (hm : m ∈ marks) (hbody : Text.trim body = m :: rest)
    (h : sectionPath rest = .error defect) : HasDefect body defect := by
  simp only [sectionPath, List.isEmpty_iff, List.contains_iff_mem] at h
  split at h
  · rename_i hempty
    cases h
    exact .inl ⟨m, hm, rest, hbody, trim_eq_nil_iff.1 hempty⟩
  · split at h
    · rename_i hbar
      cases h
      refine ⟨m, hm, rest, hbody, ?_, ?_⟩
      · rw [String.toList_ofList]
      · rwa [String.toList_ofList]
    · cases h

theorem filter_eq_error {name : List Char} {defect : Defect} (h : filter name = .error defect) :
    defect = .unknownFilter (.ofList name) ∧ Filter.ofName? (.ofList name) = none := by
  unfold filter at h
  split at h
  · cases h
  · cases h
    exact ⟨rfl, by assumption⟩

theorem hasDefect_of_ofParts {body : List Char} {defect : Defect} (hm : Unmarked body)
    (h : ofParts ((body.splitOn '|').map Text.trim) = .error defect) :
    HasDefect body defect := by
  obtain ⟨first, names, hparts⟩ := List.exists_cons_of_ne_nil (List.splitOn_ne_nil '|' body)
  rw [hparts, List.map_cons] at h
  simp only [ofParts, List.isEmpty_iff] at h
  split at h
  · rename_i hempty
    cases h
    exact .inr ⟨hm, first, names, hparts, trim_eq_nil_iff.1 hempty⟩
  · rename_i hpath
    obtain ⟨ys, x, zs, hnames, hys, hx⟩ := exists_of_mapM_eq_error (map_eq_error_iff.1 h)
    obtain ⟨rfl, hnone⟩ := filter_eq_error hx
    obtain ⟨known, more, rfl, rfl, hmore⟩ := List.map_eq_append_iff.1 hnames
    obtain ⟨bad, others, rfl, rfl, -⟩ := List.map_eq_cons_iff.1 hmore
    refine ⟨hm, first, known, bad, others, hparts, ?_, ?_, ?_, hnone⟩
    · rwa [← trim_eq_nil_iff]
    · intro part hpart
      obtain ⟨f, hf⟩ := hys _ (List.mem_map_of_mem hpart)
      exact ⟨f, filter_eq_ok_iff.1 hf⟩
    · rw [String.toList_ofList]

/-- A body that is refused has the defect for which it is. -/
theorem hasDefect_of_ofBody {body : List Char} {defect : Defect}
    (h : ofBody body = .error defect) : HasDefect body defect := by
  rcases ofBody_cases body with hcase | hcase | hcase | hcase
  case inl | inr.inl | inr.inr.inl =>
    obtain ⟨rest, hbody, he⟩ := hcase
    rw [he, map_eq_error_iff] at h
    exact hasDefect_of_sectionPath (by decide) hbody h
  case inr.inr.inr =>
    obtain ⟨hm, he⟩ := hcase
    rw [he, map_trim_splitOn_trim] at h
    exact hasDefect_of_ofParts hm h

end BibTemplate.Tag

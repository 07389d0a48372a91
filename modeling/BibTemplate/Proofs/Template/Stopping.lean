import BibTemplate.Proofs.Template.Grammar
import BibTemplate.Proofs.Template.TagDefects
import BibTemplate.Proofs.Text.Lines

/-!
# Where the reading stops

The tags of a text are read one after the other. The reading stops at the first tag that
does not fit what has been read before, and the error shows the place of that tag. If it
comes to the end, only a section that is still open can be wrong.
-/
namespace BibTemplate

open Tag (IsSection HasDefect)
open Text (Position)

/-- What is wrong is only that a section has not been closed. -/
def SyntaxError.IsUnterminated (e : SyntaxError) : Prop :=
  ∃ opened, e.defect = .unterminatedSection opened

/-- A tag with this body stands at the place `p` of the text `s`. Its body ends at the first
closing braces behind the opening ones. -/
structure TagAt (s : List Char) (p : Position) (before body after : List Char) : Prop where
  place : p.Parts s before (braced body ++ after)
  first : Unpaired '}' body

/-- At one place stands no more than one tag. -/
theorem TagAt.unique {s : List Char} {p : Position} {x y b c r q : List Char}
    (h : TagAt s p x b r) (k : TagAt s p y c q) : x = y ∧ b = c ∧ r = q := by
  obtain ⟨rfl, htag⟩ := h.place.unique k.place
  simp only [braced_append, List.cons.injEq, true_and] at htag
  have hcut := cutPair_append h.first r
  rw [htag, cutPair_append k.first q] at hcut
  obtain ⟨rfl, rfl⟩ : c = b ∧ q = r := by simpa using hcut
  exact ⟨rfl, rfl, rfl⟩

theorem Segments.IsCut.tagAt {done more : List (List Char × List Char)}
    {t b tail s : List Char} (h : IsCut ⟨done ++ (t, b) :: more, tail⟩ s) :
    TagAt s (Position.start.advance (join ⟨done, t⟩)) (join ⟨done, t⟩) b (join ⟨more, tail⟩) := by
  refine ⟨?_, h.bodies (t, b) (by simp)⟩
  have hs : s = join ⟨done, t⟩ ++ (braced b ++ join ⟨more, tail⟩) := by
    rw [← h.join_eq, join_append, join_cons, join_tail done t, List.append_assoc]
  rw [hs]
  exact Position.parts_advance _ _

namespace Draft

theorem opened_addText (d : Draft) (t : List Char) : (d.addText t).opened = d.opened := by
  cases t <;> rfl

/-- All the reasons for which a tag cannot be added to a draft. -/
inductive Refuses (d : Draft) (b : List Char) : Defect → Prop
  | alone {defect : Defect} : HasDefect b defect → Refuses d b defect
  | tooDeep {negated : Bool} {path : String} :
      IsSection (Tag.mark negated) b path → maxDepth ≤ d.opened.length →
        Refuses d b .nestingTooDeep
  | unexpected {path : String} :
      IsSection '/' b path → d.opened = [] → Refuses d b (.unexpectedClose path)
  | mismatched {path : String} {s : OpenSection} {outer : List OpenSection} :
      IsSection '/' b path → d.opened = s :: outer → s.path ≠ path →
        Refuses d b (.mismatchedClose s.path path)

theorem refuses_of_addTag {d : Draft} {b : List Char} {tag : Tag} {defect : Defect}
    (hb : Tag.IsBody b tag) (h : d.addTag tag = .error defect) : d.Refuses b defect := by
  cases tag with
  | placeholder path filters => cases h
  | opening negated path =>
    rw [addTag] at h
    split at h
    · rename_i hdepth
      cases h
      exact .tooDeep hb hdepth
    · cases h
  | closing path =>
    rw [addTag] at h
    split at h
    · rename_i hopened
      cases h
      exact .unexpected hb hopened
    · rename_i s outer hopened
      split at h
      · cases h
      · rename_i hne
        cases h
        exact .mismatched hb hopened hne

/-- An error shows the place of its tag and a defect for which the draft refuses it. -/
theorem refuses_of_addBody {d : Draft} {b : List Char} {e : SyntaxError}
    (h : d.addBody b = .error e) : e.position = d.position ∧ d.Refuses b e.defect := by
  unfold addBody at h
  split at h
  · rename_i defect hdefect
    cases h
    refine ⟨rfl, ?_⟩
    cases htag : Tag.ofBody b with
    | error defect' =>
      rw [htag] at hdefect
      cases hdefect
      exact .alone (Tag.hasDefect_of_ofBody htag)
    | ok tag =>
      rw [htag] at hdefect
      exact refuses_of_addTag (Tag.ofBody_eq_ok_iff.1 htag) hdefect
  · cases h

theorem Refuses.not_unterminated {d : Draft} {b : List Char} {e : SyntaxError}
    (h : d.Refuses b e.defect) : ¬ e.IsUnterminated := by
  intro hun
  obtain ⟨opened, hopened⟩ := hun
  rw [hopened] at h
  cases h with
  | alone h => exact h

/-- The draft after tags, each with the text before it. -/
def ofTags (tags : List (List Char × List Char)) : Except SyntaxError Draft :=
  tags.foldlM addSegment empty

theorem addSegment_eq_ok_iff {d e : Draft} {t b : List Char} :
    d.addSegment (t, b) = .ok e ↔ (d.addText t).Reads (.tag b) e := by
  change (d.addText t).addToken (.tag b) = .ok e ↔ _
  exact addToken_eq_ok_iff

theorem Reads.position_eq {d e : Draft} {t : Token} (h : d.Reads t e) :
    e.position = d.position.advance t.chars := by
  cases h with
  | text t => cases t <;> rfl
  | _ => rfl

theorem position_of_foldlM {tags : List (List Char × List Char)} {d e : Draft}
    (h : tags.foldlM addSegment d = .ok e) :
    e.position = d.position.advance (Segments.join ⟨tags, []⟩) := by
  induction tags generalizing d with
  | nil =>
    cases h
    rfl
  | cons p tags ih =>
    obtain ⟨t, b⟩ := p
    obtain ⟨f, hf, h⟩ := bind_eq_ok_iff.1 h
    have htext : (d.addText t).position = d.position.advance t := (Reads.text t).position_eq
    rw [ih h, (addSegment_eq_ok_iff.1 hf).position_eq, htext, Segments.join_cons,
      Position.advance_append, Position.advance_append]
    rfl

theorem position_of_ofTags {tags : List (List Char × List Char)} {d : Draft}
    (h : ofTags tags = .ok d) (t : List Char) :
    (d.addText t).position = Position.start.advance (Segments.join ⟨tags, t⟩) := by
  rw [(Reads.text t).position_eq, position_of_foldlM h, Segments.join_tail tags t,
    Position.advance_append]
  rfl

/-- Tags that cannot be read have a first one that is refused, at its own place. -/
theorem exists_of_ofTags_eq_error {tags : List (List Char × List Char)} {e : SyntaxError}
    (h : ofTags tags = .error e) :
    ∃ done t b more d, tags = done ++ (t, b) :: more ∧ ofTags done = .ok d ∧
      ofTags (done ++ [(t, b)]) = .error e ∧
      e.position = Position.start.advance (Segments.join ⟨done, t⟩) ∧
      (d.addText t).Refuses b e.defect := by
  obtain ⟨done, ⟨t, b⟩, more, d, rfl, hd, hb⟩ := exists_of_foldlM_eq_error h
  obtain ⟨hplace, hrefuses⟩ := refuses_of_addBody hb
  refine ⟨done, t, b, more, d, rfl, hd, ?_, ?_, hrefuses⟩
  · rw [ofTags, foldlM_append_eq_bind, hd]
    change (d.addSegment (t, b)).bind _ = _
    rw [hb]
    rfl
  · rw [hplace, position_of_ofTags hd]

end Draft

namespace Template

variable {source : String} {e : SyntaxError}

/-- The reading of a text ends at a tag, or with a section that is open, or in a template. -/
theorem parse_cases (source : String) :
    (∃ e, Draft.ofTags (Segments.ofChars source.toList).tags = .error e ∧
      parse source = .error e) ∨
    ∃ d, Draft.ofTags (Segments.ofChars source.toList).tags = .ok d ∧
      ((∃ s outer, d.opened = s :: outer ∧
        parse source = .error ⟨s.position, .unterminatedSection s.path⟩) ∨
      ∃ t, parse source = .ok t) := by
  have hparse : parse source = ((Draft.ofTags (Segments.ofChars source.toList).tags).map fun d =>
      d.addText (Segments.ofChars source.toList).tail).bind Draft.finish := rfl
  cases htags : Draft.ofTags (Segments.ofChars source.toList).tags with
  | error e =>
    rw [hparse, htags]
    exact .inl ⟨e, rfl, rfl⟩
  | ok d =>
    refine .inr ⟨d, rfl, ?_⟩
    rw [hparse, htags]
    simp only [Except.map, Except.bind, Draft.finish, Draft.opened_addText]
    cases d.opened with
    | nil => exact .inr ⟨_, rfl⟩
    | cons s outer => exact .inl ⟨s, outer, rfl, rfl⟩

/-- An error other than that of an open section is that of a tag. -/
theorem ofTags_eq_error_iff :
    Draft.ofTags (Segments.ofChars source.toList).tags = .error e ↔
      parse source = .error e ∧ ¬ e.IsUnterminated := by
  constructor
  · intro h
    obtain ⟨_, _, _, _, _, -, -, -, -, hrefuses⟩ := Draft.exists_of_ofTags_eq_error h
    refine ⟨?_, hrefuses.not_unterminated⟩
    rcases parse_cases source with ⟨e', he', hparse⟩ | ⟨d, hd, -⟩
    · rw [h] at he'
      cases he'
      exact hparse
    · rw [h] at hd
      cases hd
  · intro h
    obtain ⟨hparse, hun⟩ := h
    rcases parse_cases source with ⟨e', he', hparse'⟩ | ⟨d, -, ⟨s, outer, -, hs⟩ | ⟨t, ht⟩⟩
    · rw [hparse] at hparse'
      cases hparse'
      exact he'
    · rw [hparse] at hs
      cases hs
      exact absurd ⟨s.path, rfl⟩ hun
    · rw [hparse] at ht
      cases ht

end Template

end BibTemplate

import BibTemplate.Proofs.Template.Stopping

/-!
# What an error says

An error shows a tag by its line and column and says what is wrong with it: with the tag
alone, with the tag among the sections that are open in front of it, or, at the end of the
text, with the section that it opens. Which sections are open at a place is found by
matching opening and closing tags like brackets, by their marks and with no other look at
them.
-/
namespace BibTemplate

open Tag (IsPlaceholder IsSection HasDefect Unmarked)
open Text (Position)

/-- A tag that has opened a section: where it stands, and the path behind its mark. -/
structure Opener where
  position : Position
  path : String

namespace Opener

/-- The sections that are open behind a tag at the place `p`, the innermost first. -/
def behind (opened : List Opener) (p : Position) (body : List Char) : List Opener :=
  match Text.trim body with
  | '#' :: rest | '^' :: rest => ⟨p, .ofList (Text.trim rest)⟩ :: opened
  | '/' :: _ => opened.tail
  | _ => opened

/-- The place behind tags, and the sections that are open there. -/
def ofTags (tags : List (List Char × List Char)) : Position × List Opener :=
  tags.foldl (fun (p, opened) (text, body) =>
    ((p.advance text).advance (braced body), behind opened (p.advance text) body)) (.start, [])

end Opener

/-- The sections that are open at the end of a text, the innermost first. -/
def openSections (s : List Char) : List Opener :=
  (Opener.ofTags (Segments.ofChars s).tags).2

/-- What a defect says of a tag with this body, at the place `p` of the text `s`, where the
text `before` ends. -/
def Defect.SaysOf (s before body : List Char) (p : Position) : Defect → Prop
  | .unexpectedClose closed => IsSection '/' body closed ∧ openSections before = []
  | .mismatchedClose opened closed =>
    IsSection '/' body closed ∧
      (∃ q outer, openSections before = ⟨q, opened⟩ :: outer) ∧ opened ≠ closed
  | .nestingTooDeep =>
    (∃ negated path, IsSection (Tag.mark negated) body path) ∧
      (openSections before).length = maxDepth
  | .unterminatedSection opened =>
    (∃ negated, IsSection (Tag.mark negated) body opened) ∧
      ∃ outer, openSections s = ⟨p, opened⟩ :: outer
  | defect => HasDefect body defect

namespace Opener

variable {opened : List Opener} {p : Position} {body : List Char} {path : String}

theorem behind_of_opening {negated : Bool} (h : IsSection (Tag.mark negated) body path) :
    behind opened p body = ⟨p, path⟩ :: opened := by
  obtain ⟨rest, hbody, hpath, -, -⟩ := h
  have hrest : String.ofList (Text.trim rest) = path := by rw [hpath, String.ofList_toList]
  cases negated <;> simp [behind, hbody, Tag.mark, hrest]

theorem behind_of_closing (h : IsSection '/' body path) :
    behind opened p body = opened.tail := by
  obtain ⟨rest, hbody, -⟩ := h
  simp [behind, hbody]

theorem behind_of_unmarked (h : Unmarked body) : behind opened p body = opened := by
  have hmark : ∀ m ∈ Tag.marks, ∀ rest, Text.trim body ≠ m :: rest := by
    intro m hm rest hrest
    exact h m hm (by rw [hrest]; rfl)
  unfold behind
  split
  · exact absurd ‹_› (hmark '#' (by decide) _)
  · exact absurd ‹_› (hmark '^' (by decide) _)
  · exact absurd ‹_› (hmark '/' (by decide) _)
  · rfl

theorem ofTags_concat (tags : List (List Char × List Char)) (t b : List Char) :
    ofTags (tags ++ [(t, b)]) =
      (((ofTags tags).1.advance t).advance (braced b),
        behind (ofTags tags).2 ((ofTags tags).1.advance t) b) :=
  List.foldl_concat ..

theorem position_ofTags (tags : List (List Char × List Char)) :
    (ofTags tags).1 = Position.start.advance (Segments.join ⟨tags, []⟩) := by
  induction tags using List.reverseRecOn with
  | nil => rfl
  | append_singleton tags p ih =>
    obtain ⟨t, b⟩ := p
    rw [ofTags_concat, ih, Segments.join_append, Segments.join_cons, Position.advance_append,
      Position.advance_append, Position.advance_append]
    rfl

end Opener

def OpenSection.opener (s : OpenSection) : Opener := ⟨s.position, s.path⟩

namespace Draft

/-- The open sections of a draft are those that matching the marks of the tags finds, and
each has been opened by a tag at its place. -/
structure Tracks (tags : List (List Char × List Char)) (d : Draft) : Prop where
  opened : d.opened.map OpenSection.opener = (Opener.ofTags tags).2
  depth : d.opened.length ≤ maxDepth
  places : ∀ s ∈ d.opened, ∃ done t b more, tags = done ++ (t, b) :: more ∧
    s.position = Position.start.advance (Segments.join ⟨done, t⟩) ∧
    IsSection (Tag.mark s.negated) b s.path

variable {tags : List (List Char × List Char)} {d e : Draft} {t b : List Char}

theorem Tracks.step (h : Tracks tags d)
    (hp : (d.addText t).position = Position.start.advance (Segments.join ⟨tags, t⟩))
    (hr : (d.addText t).Reads (.tag b) e) : Tracks (tags ++ [(t, b)]) e := by
  have hplace : (Opener.ofTags tags).1.advance t = (d.addText t).position := by
    rw [hp, Opener.position_ofTags, Segments.join_tail tags t, Position.advance_append]
  have hkept : ∀ s ∈ d.opened, ∃ done t' b' more, tags ++ [(t, b)] = done ++ (t', b') :: more ∧
      s.position = Position.start.advance (Segments.join ⟨done, t'⟩) ∧
      IsSection (Tag.mark s.negated) b' s.path := by
    intro s hs
    obtain ⟨done, t', b', more, rfl, hs⟩ := h.places s hs
    exact ⟨done, t', b', more ++ [(t, b)], by simp, hs⟩
  have hopened := opened_addText d t
  generalize d.addText t = f at hp hr hplace hopened
  cases hr with
  | placeholder hb =>
    obtain ⟨-, -, -, -, hm, -⟩ := hb
    refine ⟨?_, hopened ▸ h.depth, hopened ▸ hkept⟩
    rw [Opener.ofTags_concat, Opener.behind_of_unmarked hm, ← h.opened, ← hopened]
  | opening hb hlt =>
    refine ⟨?_, hlt, ?_⟩
    · rw [Opener.ofTags_concat, Opener.behind_of_opening hb, ← h.opened, ← hopened, hplace]
      rfl
    · intro s hs
      rcases List.mem_cons.1 hs with rfl | hs
      · exact ⟨tags, t, b, [], rfl, hp, hb⟩
      · exact hkept s (hopened ▸ hs)
  | closing hb ho =>
    rw [hopened] at ho
    have hdepth := h.depth
    rw [ho, List.length_cons] at hdepth
    refine ⟨?_, Nat.le_of_succ_le hdepth, ?_⟩
    · rw [Opener.ofTags_concat, Opener.behind_of_closing hb, ← h.opened, ho]
      rfl
    · intro s hs
      exact hkept s (ho ▸ List.mem_cons_of_mem _ hs)

theorem tracks_of_ofTags (h : ofTags tags = .ok d) : Tracks tags d := by
  induction tags using List.reverseRecOn generalizing d with
  | nil =>
    cases h
    exact ⟨rfl, Nat.zero_le _, by simp [empty]⟩
  | append_singleton tags p ih =>
    obtain ⟨t, b⟩ := p
    unfold ofTags at h
    rw [foldlM_append_eq_bind] at h
    obtain ⟨f, hf, h⟩ := bind_eq_ok_iff.1 h
    obtain ⟨g, hg, hd⟩ := bind_eq_ok_iff.1 h
    cases hd
    exact (ih hf).step (position_of_ofTags hf t) (addSegment_eq_ok_iff.1 hg)

/-- A tag is refused for something that is true of it where it stands. -/
theorem Refuses.saysOf {s before : List Char} {p : Position} {defect : Defect}
    (h : d.Refuses b defect) (hd : d.opened.map OpenSection.opener = openSections before)
    (hdepth : d.opened.length ≤ maxDepth) : defect.SaysOf s before b p := by
  cases h with
  | alone hb => cases defect <;> first | exact hb | exact hb.elim
  | @tooDeep negated path hb hlt =>
    refine ⟨⟨negated, path, hb⟩, ?_⟩
    rw [← hd, List.length_map]
    omega
  | unexpected hb ho =>
    refine ⟨hb, ?_⟩
    rw [← hd, ho]
    rfl
  | @mismatched path o outer hb ho hne =>
    refine ⟨hb, ⟨o.position, outer.map OpenSection.opener, ?_⟩, hne⟩
    rw [← hd, ho]
    rfl

end Draft

/-- Every error shows a tag of the text, and what it says of this tag is true. -/
theorem Template.parse_error_saysOf {source : String} {e : SyntaxError}
    (h : parse source = .error e) :
    ∃ before body after, TagAt source.toList e.position before body after ∧
      e.defect.SaysOf source.toList before body e.position := by
  have hcut := Segments.isCut_ofChars source.toList
  rcases parse_cases source with ⟨e', htags, hparse⟩ | ⟨d, hd, ⟨s, outer, hopened, hs⟩ | ⟨t, ht⟩⟩
  · rw [h] at hparse
    cases hparse
    generalize Segments.ofChars source.toList = g at htags hcut
    obtain ⟨tags, tail⟩ := g
    obtain ⟨done, t, b, more, d, rfl, hd, -, hplace, hrefuses⟩ :=
      Draft.exists_of_ofTags_eq_error htags
    have htracks := Draft.tracks_of_ofTags hd
    refine ⟨_, b, _, hplace ▸ hcut.tagAt, hrefuses.saysOf ?_ ?_⟩
    · rw [Draft.opened_addText, htracks.opened, openSections, hcut.ofChars_before]
    · rw [Draft.opened_addText]
      exact htracks.depth
  · rw [h] at hs
    cases hs
    have htracks := Draft.tracks_of_ofTags hd
    have hopen : openSections source.toList = d.opened.map OpenSection.opener :=
      htracks.opened.symm
    generalize Segments.ofChars source.toList = g at hcut htracks
    obtain ⟨tags, tail⟩ := g
    obtain ⟨done, t, b, more, rfl, hplace, hb⟩ := htracks.places s (by simp [hopened])
    refine ⟨_, b, _, hplace ▸ hcut.tagAt, ⟨s.negated, hb⟩, ?_⟩
    rw [hopen, hopened]
    exact ⟨_, rfl⟩
  · rw [h] at ht
    cases ht

/-- A section on the second line that is closed by another name. -/
theorem Template.parse_error_saysOf_mismatch :
    ∃ before body after,
      TagAt "a\n\x7b\x7b#s\x7d\x7db\x7b\x7b/t\x7d\x7d".toList ⟨2, 8⟩ before body after ∧
        IsSection '/' body "t" ∧ (∃ q outer, openSections before = ⟨q, "s"⟩ :: outer) ∧
        "s" ≠ "t" := by
  have herror : parse "a\n\x7b\x7b#s\x7d\x7db\x7b\x7b/t\x7d\x7d" =
      .error ⟨⟨2, 8⟩, .mismatchedClose "s" "t"⟩ := by
    rw [parse, Segments.ofChars_of_some
        (t := ⟨['a', '\n'], ['#', 's'], ['b', '{', '{', '/', 't', '}', '}']⟩) rfl,
      Segments.ofChars_of_some (t := ⟨['b'], ['/', 't'], []⟩) rfl, Segments.ofChars_of_none rfl]
    rfl
  exact parse_error_saysOf herror

end BibTemplate

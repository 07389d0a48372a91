import BibTemplate.Proofs.Template.Stopping

/-!
# Templates cut short

The error of a text belongs to the first tag that is wrong, and nothing that comes behind
this tag changes it. In front of the end of the tag there is no error to be seen yet, apart
from sections that wait for their closing tags. So an error that has appeared while a text
is typed stays until something in front of it is changed.
-/
namespace BibTemplate

namespace Draft

variable {done more : List (List Char × List Char)}

theorem ofTags_append_of_error {e : SyntaxError} (h : ofTags done = .error e) :
    ofTags (done ++ more) = .error e := by
  unfold ofTags at h ⊢
  rw [foldlM_append_eq_bind, h]
  rfl

theorem exists_ofTags_of_append {d : Draft} (h : ofTags (done ++ more) = .ok d) :
    ∃ d', ofTags done = .ok d' := by
  unfold ofTags at h
  rw [foldlM_append_eq_bind] at h
  obtain ⟨d', hd', -⟩ := bind_eq_ok_iff.1 h
  exact ⟨d', hd'⟩

end Draft

namespace Segments

theorem exists_tags_append (s t : List Char) :
    ∃ more, (ofChars (s ++ t)).tags = (ofChars s).tags ++ more :=
  ⟨_, congrArg tags ((isCut_ofChars s).ofChars_append_tail t)⟩

/-- A text that is cut short anywhere in its last tag loses that tag. -/
theorem exists_tags_of_prefix {done : List (List Char × List Char)} {t b cut whole : List Char}
    (hwhole : ofChars whole = ⟨done ++ [(t, b)], []⟩) (hcut : cut <+: whole)
    (hne : cut ≠ whole) : ∃ more, done = (ofChars cut).tags ++ more := by
  obtain ⟨w, hw⟩ := hcut
  obtain ⟨more, hmore⟩ := exists_tags_append cut w
  rw [hw, hwhole] at hmore
  rcases List.eq_nil_or_concat more with rfl | ⟨more, last, rfl⟩
  · -- All the tags fit into the shorter text only if it is the whole.
    have hjoin : join ⟨done ++ [(t, b)], []⟩ = whole := by
      rw [← hwhole]
      exact (isCut_ofChars whole).join_eq
    have hshort : join ⟨(ofChars cut).tags, []⟩ ++ (ofChars cut).tail = cut := by
      rw [← join_tail]
      exact (isCut_ofChars cut).join_eq
    rw [List.append_nil] at hmore
    rw [← hmore, hjoin] at hshort
    have hle : whole.length ≤ cut.length := by
      rw [← hshort, List.length_append]
      omega
    exact absurd (List.IsPrefix.eq_of_length_le ⟨w, hw⟩ hle) hne
  · rw [List.concat_eq_append, ← List.append_assoc] at hmore
    exact ⟨more, (List.append_inj' hmore rfl).1⟩

end Segments

namespace Template

variable {p w s : String} {e : SyntaxError}

/-- The text is a template, or nothing is wrong with it but that a section is open. -/
def Viable (source : String) : Prop :=
  (∃ t, parse source = .ok t) ∨ ∃ e, parse source = .error e ∧ e.IsUnterminated

theorem viable_iff :
    Viable s ↔ ∃ d, Draft.ofTags (Segments.ofChars s.toList).tags = .ok d := by
  constructor
  · intro h
    rcases parse_cases s with ⟨e, he, hparse⟩ | ⟨d, hd, -⟩
    · obtain ⟨-, hun⟩ := ofTags_eq_error_iff.1 he
      rcases h with ⟨t, ht⟩ | ⟨e', he', hun'⟩
      · rw [hparse] at ht
        cases ht
      · rw [hparse] at he'
        cases he'
        exact absurd hun' hun
    · exact ⟨d, hd⟩
  · intro h
    obtain ⟨d, hd⟩ := h
    rcases parse_cases s with ⟨e, he, -⟩ | ⟨-, -, ⟨o, outer, -, ho⟩ | ht⟩
    · rw [hd] at he
      cases he
    · exact .inr ⟨_, ho, o.path, rfl⟩
    · exact .inl ht

theorem parse_append_of_error (h : parse p = .error e) (hun : ¬ e.IsUnterminated) (w : String) :
    parse (p ++ w) = .error e := by
  obtain ⟨more, hmore⟩ := Segments.exists_tags_append p.toList w.toList
  have htags := ofTags_eq_error_iff.2 ⟨h, hun⟩
  refine (ofTags_eq_error_iff.1 ?_).1
  rw [String.toList_append, hmore]
  exact Draft.ofTags_append_of_error htags

theorem viable_of_append (h : Viable (p ++ w)) : Viable p := by
  obtain ⟨d, hd⟩ := viable_iff.1 h
  obtain ⟨more, hmore⟩ := Segments.exists_tags_append p.toList w.toList
  rw [String.toList_append, hmore] at hd
  exact viable_iff.2 (Draft.exists_ofTags_of_append hd)

/-- The tag of an error is where the error comes up: up to the end of the tag the text has
the same error, and cut short before that it has none. -/
theorem exists_tagAt_of_error (h : parse s = .error e) (hun : ¬ e.IsUnterminated) :
    ∃ before body after, TagAt s.toList e.position before body after ∧
      parse (.ofList (before ++ braced body)) = .error e ∧
      ∀ cut, cut <+: before ++ braced body → cut ≠ before ++ braced body →
        Viable (.ofList cut) := by
  have htags := ofTags_eq_error_iff.2 ⟨h, hun⟩
  have hcut := Segments.isCut_ofChars s.toList
  generalize Segments.ofChars s.toList = g at htags hcut
  obtain ⟨tags, tail⟩ := g
  obtain ⟨done, t, b, more, d, rfl, hd, hthrough, hplace, -⟩ :=
    Draft.exists_of_ofTags_eq_error htags
  have hwhole := hcut.ofChars_through
  refine ⟨_, b, _, hplace ▸ hcut.tagAt, ?_, ?_⟩
  · refine (ofTags_eq_error_iff.1 ?_).1
    rw [String.toList_ofList, hwhole]
    exact hthrough
  · intro cut hprefix hne
    obtain ⟨more', rfl⟩ := Segments.exists_tags_of_prefix hwhole hprefix hne
    rw [viable_iff, String.toList_ofList]
    exact Draft.exists_ofTags_of_append hd

/-- An error that is not that of an open section stays the same whatever is written behind
the text. It is the error of one tag: the text up to the end of this tag has it already,
and the text cut short anywhere before has no error but that of an open section. So no
template begins with a text that has another error. -/
theorem parse_error_stable :
    (∀ p w e, parse p = .error e → ¬ e.IsUnterminated → parse (p ++ w) = .error e) ∧
    (∀ s e, parse s = .error e → ¬ e.IsUnterminated →
      (∃ before body after, TagAt s.toList e.position before body after) ∧
      ∀ before body after, TagAt s.toList e.position before body after →
        parse (.ofList (before ++ braced body)) = .error e ∧
        ∀ cut, cut <+: before ++ braced body → cut ≠ before ++ braced body →
          Viable (.ofList cut)) ∧
    ∀ p w t, parse (p ++ w) = .ok t → Viable p := by
  refine ⟨fun p w e h hun => parse_append_of_error h hun w, ?_, ?_⟩
  · intro s e h hun
    obtain ⟨before, body, after, htag, herror, hcuts⟩ := exists_tagAt_of_error h hun
    refine ⟨⟨before, body, after, htag⟩, ?_⟩
    intro before' body' after' htag'
    obtain ⟨rfl, rfl, -⟩ := htag.unique htag'
    exact ⟨herror, hcuts⟩
  · intro p w t h
    exact viable_of_append (.inl ⟨t, h⟩)

/-- A section that is closed by another name, with an empty tag written behind it. -/
theorem parse_error_stable_mismatch :
    parse ("\x7b\x7b#a\x7d\x7d\x7b\x7b/b\x7d\x7d" ++ "\x7b\x7b\x7d\x7d") =
      .error ⟨⟨1, 7⟩, .mismatchedClose "a" "b"⟩ := by
  have herror : parse "\x7b\x7b#a\x7d\x7d\x7b\x7b/b\x7d\x7d" =
      .error ⟨⟨1, 7⟩, .mismatchedClose "a" "b"⟩ := by
    rw [parse, Segments.ofChars_of_some
        (t := ⟨[], ['#', 'a'], ['{', '{', '/', 'b', '}', '}']⟩) rfl,
      Segments.ofChars_of_some (t := ⟨[], ['/', 'b'], []⟩) rfl, Segments.ofChars_of_none rfl]
    rfl
  refine parse_error_stable.1 _ _ _ herror ?_
  simp [SyntaxError.IsUnterminated]

end Template

end BibTemplate

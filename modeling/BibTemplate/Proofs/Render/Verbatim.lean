import BibTemplate.Proofs.Render.Clauses
import BibTemplate.Proofs.Template.Spans
import BibTemplate.Render.Basic

/-!
# Text comes out as it is

The text of a template between its tags is neither changed nor moved by rendering. Against
null nothing else is shown: every path leads to nothing or to null, so placeholders are
empty whatever their filters, positive sections are left out and inverted ones are shown,
still against null.
-/
namespace BibTemplate

theorem Filter.apply_empty (f : Filter) : f.apply "" = "" := by
  cases f with
  | abbr count => simp [apply, run]
  | _ => rfl

theorem Filter.applyAll_empty (filters : List Filter) : applyAll filters "" = "" := by
  induction filters with
  | nil => rfl
  | cons f filters ih => rw [applyAll_cons, apply_empty, ih]

/-- Every path leads to nothing or to null. -/
theorem Scopes.eq_null_of_resolve? {path : String} {v : Value}
    (h : (ofRoot .null).resolve? path = some v) : v = .null := by
  rw [resolve?] at h
  cases hp : Path.ofString path with
  | current =>
    rw [hp] at h
    cases h
    rfl
  | segments first rest =>
    rw [hp] at h
    cases h

theorem Scopes.falsy_null (path : String) : (ofRoot .null).Falsy path := by
  intro v h
  rw [eq_null_of_resolve? h]
  rfl

theorem Node.evalAll_placeholder_null (path : String) (filters : List Filter) :
    evalAll [.placeholder path filters] (.ofRoot .null) = "" := by
  cases h : (Scopes.ofRoot .null).resolve? path with
  | none => rw [denotation_evalAll.absent filters h, Filter.applyAll_empty]
  | some v =>
    rw [denotation_evalAll.present filters h, Scopes.eq_null_of_resolve? h]
    exact Filter.applyAll_empty filters

/-- What a row means against null is what the texts in it show, if it does not stand in a
positive section. -/
theorem Derives.shownTexts_append {depth : ℕ} {ts : List Token} {ns : List Node}
    (h : Derives depth ts ns) (opened : List Bool) (us : List Token) :
    shownTexts opened (ts ++ us) =
      (if true ∈ opened then [] else (Node.evalAll ns (.ofRoot .null)).toList) ++
        shownTexts opened us := by
  -- What comes behind is left open, since the body of a section is read up to its closing tag.
  induction h generalizing opened us with
  | nil => simp [Node.evalAll]
  | noText _ ih =>
    rw [List.cons_append, shownTexts, ih, ite_self, List.nil_append]
  | text ht _ ih =>
    rw [List.cons_append, shownTexts, ih, Node.denotation_evalAll.cons,
      Node.denotation_evalAll.literal]
    split <;> simp
  | placeholder hb _ ih =>
    rw [List.cons_append, shownTexts, Token.opened_of_unmarked hb.unmarked, ih,
      Node.denotation_evalAll.cons, Node.evalAll_placeholder_null, String.empty_append]
  | @block depth o c path negated inner ts body ns _ ho hc _ _ ihi ih =>
    have hfalsy : (Scopes.ofRoot .null).Falsy path := Scopes.falsy_null path
    have hclose : ∀ flag, shownTexts (flag :: opened) (.tag c :: (ts ++ us)) =
        shownTexts opened (ts ++ us) := by
      intro flag
      rw [shownTexts, Token.opened_of_closing hc.tagMark?_eq, List.tail_cons]
    rw [List.cons_append, List.append_assoc, List.cons_append, shownTexts,
      Token.opened_of_opening ho.tagMark?_eq, ihi, hclose, ih, Node.denotation_evalAll.cons]
    cases negated with
    | false =>
      rw [Node.denotation_evalAll.skipped body hfalsy]
      simp
    | true =>
      rw [Node.denotation_evalAll.inverted body hfalsy]
      by_cases hopen : true ∈ opened <;> simp [hopen]

theorem Template.parse_of_not_hasTag {source : String} (h : ¬ HasTag source.toList) :
    ∃ t, parse source = .ok t ∧ ∀ s, Node.evalAll t.nodes s = source := by
  have hno := FirstTag.of?_eq_none_iff.2 h
  by_cases hempty : source = ""
  · subst hempty
    refine ⟨⟨[]⟩, ?_, fun s => rfl⟩
    rw [parse_eq_ok_iff, Segments.ofChars_of_none hno]
    exact .noText .nil
  · exact ⟨_, parse_of_no_tag hno hempty, fun s => by rw [Node.denotation_evalAll.literal]⟩

theorem render_eq_of_parse {source : String} {t : Template} {options : RenderOptions}
    (hplain : options.sanitizeForCitekey = false) (h : Template.parse source = .ok t)
    (context : Value) :
    render source context options = .ok (Node.evalAll t.nodes (.ofRoot context)) := by
  have hfinish : options.finish (Node.evalAll t.nodes (.ofRoot context)) =
      Node.evalAll t.nodes (.ofRoot context) := by
    rw [RenderOptions.finish, hplain]
    rfl
  rw [render, h, Except.map, t.render_eq, hfinish]

/-- Without a tag a text is rendered to itself, against any value. Against null, a text is
rendered to what stands in it outside the tags and outside the spans of positive sections. -/
theorem render_verbatim (source : String) (options : RenderOptions)
    (hplain : options.sanitizeForCitekey = false) :
    (¬ HasTag source.toList → ∀ context, render source context options = .ok source) ∧
    ∀ t, Template.parse source = .ok t → ∃ g : Segments, g.IsCut source.toList ∧
      ∀ cs, render source .null options = .ok (.ofList cs) ↔ Outside [] g.tokens cs := by
  refine ⟨?_, ?_⟩
  · intro hno context
    obtain ⟨t, ht, heval⟩ := Template.parse_of_not_hasTag hno
    rw [render_eq_of_parse hplain ht, heval]
  · intro t ht
    refine ⟨_, Segments.isCut_ofChars source.toList, fun cs => ?_⟩
    have hderives := Template.parse_eq_ok_iff.1 ht
    have hpaired : Paired ([] ++ (Segments.ofChars source.toList).tokens) := hderives.paired
    have hshown := hderives.shownTexts_append [] []
    rw [List.append_nil, if_neg List.not_mem_nil, shownTexts, List.append_nil] at hshown
    rw [render_eq_of_parse hplain ht, hpaired.outside_iff, openedBehind_nil, hshown,
      Except.ok.injEq, ← String.toList_inj, String.toList_ofList]
    exact eq_comm

/-- A text without a tag, and a positive section inside an inverted one. -/
theorem render_verbatim_nested :
    let source := "a\x7b\x7b^q\x7d\x7d\x7b\x7b#p\x7d\x7db\x7b\x7b/p\x7d\x7dc\x7b\x7b/q\x7d\x7d\x7b"
    render "\x7b\x7b a \x7d" (.string "b") {} = .ok "\x7b\x7b a \x7d" ∧
    render source .null {} = .ok "ac\x7b" ∧
    ∃ g : Segments, g.IsCut source.toList ∧ Outside [] g.tokens ['a', 'c', '{'] := by
  intro source
  have hparse : Template.parse source =
      .ok ⟨[.literal "a", .block "q" true [.block "p" false [.literal "b"], .literal "c"],
        .literal "\x7b"]⟩ := by
    rw [Template.parse,
      Segments.ofChars_of_some (t := ⟨['a'], ['^', 'q'], source.toList.drop 7⟩) (by decide),
      Segments.ofChars_of_some (t := ⟨[], ['#', 'p'], source.toList.drop 13⟩) (by decide),
      Segments.ofChars_of_some (t := ⟨['b'], ['/', 'p'], source.toList.drop 20⟩) (by decide),
      Segments.ofChars_of_some (t := ⟨['c'], ['/', 'q'], ['{']⟩) (by decide),
      Segments.ofChars_of_none (by decide)]
    rfl
  have hnull : render source .null {} = .ok "ac\x7b" := by
    rw [render, hparse]
    rfl
  have hsame : render "\x7b\x7b a \x7d" (.string "b") {} = .ok "\x7b\x7b a \x7d" :=
    (render_verbatim _ {} rfl).1 (FirstTag.of?_eq_none_iff.1 rfl) _
  obtain ⟨g, hcut, houtside⟩ := (render_verbatim source {} rfl).2 _ hparse
  exact ⟨hsame, hnull, g, hcut, (houtside ['a', 'c', '{']).1 hnull⟩

end BibTemplate

import BibTemplate.Proofs.Render.Denotation
import BibTemplate.Proofs.Template.Grammar
import BibTemplate.Proofs.Text.Places

/-!
# Templates one behind the other

A text put behind a template is cut as it would be alone, except that its first text
grows at the front. From there on the two readings go side by side: they add the same
nodes and open and close the same sections, on top of different nodes at the outermost
level and at places that differ by what the template in front takes up. So the second
template means what it means alone, and its errors are the same, moved.
-/
namespace BibTemplate

open Text (Position)

theorem FirstTag.of?_append_left {s t : List Char} (hs : ¬ ['{', '{'] <:+: s)
    (hst : ¬ (s.getLast? = some '{' ∧ t.head? = some '{')) :
    of? (s ++ t) = (of? t).map fun f => { f with text := s ++ f.text } := by
  unfold of?
  cases ht : cutPair '{' t with
  | none =>
    have hn : cutPair '{' (s ++ t) = none := by
      rw [cutPair_eq_none_iff, pair_infix_append]
      intro h
      rcases h with h | h | h
      · exact hs h
      · exact cutPair_eq_none_iff.1 ht h
      · exact hst h
    rw [hn]
    rfl
  | some p =>
    obtain ⟨x, r⟩ := p
    obtain ⟨rfl, hx⟩ := eq_of_cutPair ht
    have hhead : (x ++ ['{']).head? = (x ++ '{' :: '{' :: r).head? := by
      cases x <;> rfl
    have hu : Unpaired '{' (s ++ x) := .append hs hx (hhead ▸ hst)
    rw [← List.append_assoc, cutPair_append hu]
    simp only [Option.map_map]
    rfl

namespace Segments

/-- The same segments with more text in front. -/
def putBehind (s : List Char) (g : Segments) : Segments :=
  match g.tags with
  | [] => ⟨[], s ++ g.tail⟩
  | p :: tags => ⟨(s ++ p.1, p.2) :: tags, g.tail⟩

theorem ofChars_putBehind {s t : List Char} (hs : ¬ ['{', '{'] <:+: s)
    (hst : ¬ (s.getLast? = some '{' ∧ t.head? = some '{')) :
    ofChars (s ++ t) = (ofChars t).putBehind s := by
  have hf := FirstTag.of?_append_left hs hst
  cases ht : FirstTag.of? t with
  | none =>
    rw [ht] at hf
    rw [ofChars_of_none hf, ofChars_of_none ht]
    rfl
  | some f =>
    rw [ht] at hf
    rw [ofChars_of_some hf, ofChars_of_some ht]
    rfl

/-- Two texts are cut where each of them is, but for the seam. -/
theorem IsCut.ofChars_append {g : Segments} {s t : List Char} (h : g.IsCut s)
    (hs : ¬ ['{', '{'] <:+: g.tail)
    (hst : ¬ (g.tail.getLast? = some '{' ∧ t.head? = some '{')) :
    ofChars (s ++ t) =
      ⟨g.tags ++ ((ofChars t).putBehind g.tail).tags, ((ofChars t).putBehind g.tail).tail⟩ := by
  rw [h.ofChars_append_tail, ofChars_putBehind hs hst]

theorem chars_tokens (g : Segments) : g.tokens.flatMap Token.chars = g.join := by
  simp [tokens, join, Token.chars, List.flatMap_assoc]

theorem tokens_putBehind (s : List Char) (g : Segments) :
    ∃ t ts, g.tokens = .text t :: ts ∧ (g.putBehind s).tokens = .text (s ++ t) :: ts := by
  obtain ⟨tags, tail⟩ := g
  cases tags with
  | nil => exact ⟨tail, [], rfl, rfl⟩
  | cons p tags => exact ⟨p.1, .tag p.2 :: tokens ⟨tags, tail⟩, rfl, rfl⟩

end Segments

/-- The node of a text, if it is not empty. -/
def Node.ofText (t : List Char) : List Node :=
  if t.isEmpty then [] else [.literal (.ofList t)]

theorem Node.evalAll_ofText (t : List Char) (s : Scopes) :
    evalAll (ofText t) s = .ofList t := by
  cases t <;> simp [ofText, evalAll, eval]

theorem Draft.addText_eq (d : Draft) (t : List Char) :
    d.addText t = ⟨d.position.advance t, d.opened, Node.ofText t ++ d.nodes⟩ := by
  cases t <;> rfl

/-- The place `q` of a text and the place `p` of the same character behind `a`. -/
def Moved (a : List Char) (p q : Position) : Prop :=
  ∃ x, p = Position.start.advance (a ++ x) ∧ q = Position.start.advance x

theorem Moved.advance {a : List Char} {p q : Position} (h : Moved a p q) (t : List Char) :
    Moved a (p.advance t) (q.advance t) := by
  obtain ⟨x, rfl, rfl⟩ := h
  refine ⟨x ++ t, ?_, ?_⟩
  · rw [← List.append_assoc, Position.advance_append _ (a ++ x)]
  · rw [Position.advance_append]

theorem Moved.eq_behind {a : List Char} {p q : Position} (h : Moved a p q) :
    p = Position.behind a q := by
  obtain ⟨x, rfl, rfl⟩ := h
  exact Position.advance_append_start a x

/-- The open sections and innermost nodes of two readings that have done the same on top
of the nodes `m` and `n`. -/
inductive SideBySide (a : List Char) (m n : List Node) :
    List OpenSection → List Node → List OpenSection → List Node → Prop
  | outer (added : List Node) : SideBySide a m n [] (added ++ m) [] (added ++ n)
  | inner {opened₁ opened₂ : List OpenSection} {s₁ s₂ : OpenSection} {nodes : List Node} :
      s₁.path = s₂.path → s₁.negated = s₂.negated → Moved a s₁.position s₂.position →
        SideBySide a m n opened₁ s₁.before opened₂ s₂.before →
        SideBySide a m n (s₁ :: opened₁) nodes (s₂ :: opened₂) nodes

theorem SideBySide.push {a : List Char} {m n : List Node} {opened₁ opened₂ : List OpenSection}
    {nodes₁ nodes₂ : List Node} (h : SideBySide a m n opened₁ nodes₁ opened₂ nodes₂) (x : Node) :
    SideBySide a m n opened₁ (x :: nodes₁) opened₂ (x :: nodes₂) := by
  cases h with
  | outer added => exact .outer (x :: added)
  | inner hp hn hm h => exact .inner hp hn hm h

theorem SideBySide.length_eq {a : List Char} {m n : List Node}
    {opened₁ opened₂ : List OpenSection} {nodes₁ nodes₂ : List Node}
    (h : SideBySide a m n opened₁ nodes₁ opened₂ nodes₂) : opened₁.length = opened₂.length := by
  induction h with
  | outer added => rfl
  | inner _ _ _ _ ih => rw [List.length_cons, List.length_cons, ih]

namespace Draft

structure Beside (a : List Char) (m n : List Node) (d e : Draft) : Prop where
  position : Moved a d.position e.position
  levels : SideBySide a m n d.opened d.nodes e.opened e.nodes

variable {a : List Char} {m n : List Node} {d e : Draft}

theorem Beside.addText (h : Beside a m n d e) (t : List Char) :
    Beside a m n (d.addText t) (e.addText t) := by
  rw [addText_eq, addText_eq]
  refine ⟨h.position.advance t, ?_⟩
  cases t with
  | nil => exact h.levels
  | cons c t => exact h.levels.push _

/-- A tag does to both readings the same, or is the same defect in both. -/
theorem Beside.addTag (h : Beside a m n d e) (tag : Tag) :
    Alike Eq (Beside a m n) (d.addTag tag) (e.addTag tag) := by
  obtain ⟨hpos, hlev⟩ := h
  cases tag with
  | placeholder path filters => exact .ok ⟨hpos, hlev.push _⟩
  | opening negated path =>
    rw [Draft.addTag, Draft.addTag, hlev.length_eq]
    split
    · exact .error rfl
    · exact .ok ⟨hpos, .inner rfl rfl hpos hlev⟩
  | closing path =>
    obtain ⟨p, opened₁, nodes₁⟩ := d
    obtain ⟨q, opened₂, nodes₂⟩ := e
    cases hlev with
    | outer added => exact .error rfl
    | inner hp hn hm hlev =>
      simp only [Draft.addTag, hp, hn]
      split
      · exact .ok ⟨hpos, hlev.push _⟩
      · exact .error rfl

/-- Two errors with the same defect, at the same place but for the text `a` in front. -/
def MovedError (a : List Char) (x y : SyntaxError) : Prop :=
  Moved a x.position y.position ∧ x.defect = y.defect

theorem Beside.addBody (h : Beside a m n d e) (b : List Char) :
    Alike (MovedError a) (Beside a m n) (d.addBody b) (e.addBody b) := by
  have htag : Alike Eq (Beside a m n) ((Tag.ofBody b).bind d.addTag)
      ((Tag.ofBody b).bind e.addTag) := by
    refine (alike_self (Tag.ofBody b)).bind ?_
    intro t t' ht
    exact ht ▸ h.addTag t
  unfold Draft.addBody
  generalize (Tag.ofBody b).bind d.addTag = x at htag
  generalize (Tag.ofBody b).bind e.addTag = y at htag
  cases htag with
  | error hf => exact .error ⟨h.position, hf⟩
  | ok hf => exact .ok ⟨h.position.advance _, hf.levels⟩

theorem Beside.addTokens (h : Beside a m n d e) (ts : List Token) :
    Alike (MovedError a) (Beside a m n) (d.addTokens ts) (e.addTokens ts) := by
  induction ts generalizing d e with
  | nil => exact .ok h
  | cons t ts ih =>
    cases t with
    | text t => exact ih (h.addText t)
    | tag b => exact (h.addBody b).bind fun d' e' hd => ih hd

theorem Beside.finish (h : Beside a m n d e) :
    Alike (MovedError a)
      (fun t u => ∃ ns, t.nodes = m.reverse ++ ns ∧ u.nodes = n.reverse ++ ns)
      d.finish e.finish := by
  obtain ⟨p, opened₁, nodes₁⟩ := d
  obtain ⟨q, opened₂, nodes₂⟩ := e
  cases h.levels with
  | outer added => exact .ok ⟨added.reverse, by simp, by simp⟩
  | inner hp hn hm hlev => exact .error ⟨hm, congrArg Defect.unterminatedSection hp⟩

end Draft

theorem Draft.beside_addText {a t u : List Char} {d : Draft} {ns : List Node}
    (hd : d.addText t = ⟨Position.start.advance a, [], ns.reverse⟩) :
    Beside a (Node.ofText (t ++ u) ++ d.nodes) (Node.ofText u) (d.addText (t ++ u))
      (empty.addText u) := by
  rw [addText_eq, mk.injEq] at hd
  obtain ⟨hpos, hopen, -⟩ := hd
  rw [addText_eq, addText_eq, hopen, Position.advance_append, hpos, ← Position.advance_append]
  refine ⟨⟨u, rfl, rfl⟩, ?_⟩
  have houter := SideBySide.outer (a := a) (m := Node.ofText (t ++ u) ++ d.nodes)
    (n := Node.ofText u) []
  simpa [empty] using houter

theorem Node.evalAll_seam (t u : List Char) (ns : List Node) (s : Scopes) :
    evalAll (ofText (t ++ u) ++ ns).reverse s =
      evalAll (ofText t ++ ns).reverse s ++ evalAll (ofText u).reverse s := by
  have hrev : ∀ x, (ofText x).reverse = ofText x := by
    intro x
    cases x <;> rfl
  simp only [List.reverse_append, hrev, evalAll_append, evalAll_ofText]
  rw [String.ofList_append, String.append_assoc]

namespace Template

/-- What a template is read to, before the text after its last tag. -/
theorem exists_draft_of_parse {a : String} {t : Template} (ha : parse a = .ok t) :
    let g := Segments.ofChars a.toList
    ∃ d, Draft.empty.addTokens (g.tags.flatMap fun p => [.text p.1, .tag p.2]) = .ok d ∧
      d.addText g.tail = ⟨Position.start.advance a.toList, [], t.nodes.reverse⟩ := by
  intro g
  have hderives : Derives 0 g.tokens t.nodes := parse_eq_ok_iff.1 ha
  have hrun := hderives.addTokens_eq .start (rfl : ([] : List OpenSection).length = 0) []
  rw [Segments.chars_tokens, (Segments.isCut_ofChars a.toList).join_eq] at hrun
  rw [Segments.tokens, Draft.addTokens_append] at hrun
  obtain ⟨d, hd, hlast⟩ := bind_eq_ok_iff.1 hrun
  refine ⟨d, hd, ?_⟩
  simpa using hlast

/-- A text read behind a template and read alone: either both have the same error, or the
nodes mean the same, those of the template in front apart. -/
theorem alike_parse_append {a b : String} {t : Template} (ha : parse a = .ok t)
    (hpair : ¬ ['{', '{'] <:+: (Segments.ofChars a.toList).tail)
    (hseam : ¬ (a.toList.getLast? = some '{' ∧ b.toList.head? = some '{')) :
    Alike (Draft.MovedError a.toList)
      (fun v u => ∀ s, Node.evalAll v.nodes s = Node.evalAll t.nodes s ++ Node.evalAll u.nodes s)
      (parse (a ++ b)) (parse b) := by
  have hcut := Segments.isCut_ofChars a.toList
  obtain ⟨d, hinit, hlast⟩ := exists_draft_of_parse ha
  generalize Segments.ofChars a.toList = g at hcut hpair hinit hlast
  have htail : ¬ (g.tail.getLast? = some '{' ∧ b.toList.head? = some '{') := by
    intro h
    refine hseam ⟨?_, h.2⟩
    obtain ⟨x, hx⟩ := List.getLast?_eq_some_iff.1 h.1
    rw [← hcut.join_eq, Segments.join, hx, ← List.append_assoc, List.getLast?_concat]
  obtain ⟨u, ts, hb, hput⟩ := Segments.tokens_putBehind g.tail (Segments.ofChars b.toList)
  have htokens : (Segments.ofChars (a ++ b).toList).tokens =
      (g.tags.flatMap fun p => [.text p.1, .tag p.2]) ++ .text (g.tail ++ u) :: ts := by
    rw [String.toList_append, hcut.ofChars_append hpair htail, ← hput]
    simp [Segments.tokens]
  rw [parse_eq, parse_eq, htokens, hb, Draft.addTokens_append, hinit]
  refine ((Draft.beside_addText hlast).addTokens ts).bind ?_
  intro e f hef
  have hfinish := hef.finish
  generalize e.finish = x at hfinish
  generalize f.finish = y at hfinish
  cases hfinish with
  | error h => exact .error h
  | ok h =>
    obtain ⟨ns, hv, hu⟩ := h
    refine .ok ?_
    intro s
    have ht : t.nodes = (Node.ofText g.tail ++ d.nodes).reverse := by
      rw [Draft.addText_eq, Draft.mk.injEq] at hlast
      rw [hlast.2.2, List.reverse_reverse]
    rw [hv, hu, ht, Node.evalAll_append, Node.evalAll_append, Node.evalAll_seam,
      String.append_assoc]

/-- A text put behind a template adds what it means alone, or fails as it does alone, with
the error moved by the lines and columns of the template. -/
theorem parse_append {a b : String} {t : Template} (ha : parse a = .ok t)
    (hpair : ¬ ['{', '{'] <:+: (Segments.ofChars a.toList).tail)
    (hseam : ¬ (a.toList.getLast? = some '{' ∧ b.toList.head? = some '{')) :
    (∀ u, parse b = .ok u → ∃ v, parse (a ++ b) = .ok v ∧ ∀ context options,
      v.render context options = t.render context options ++ u.render context options) ∧
    ∀ line column defect, parse b = .error ⟨⟨line, column⟩, defect⟩ →
      parse (a ++ b) = .error ⟨⟨line + a.toList.count '\n',
        if 1 < line then column else column + (Position.lastLine a.toList).length⟩, defect⟩ := by
  have halike := alike_parse_append ha hpair hseam
  generalize parse (a ++ b) = x at halike
  generalize parse b = y at halike
  cases halike with
  | @error e f h =>
    obtain ⟨p, defect⟩ := e
    obtain ⟨hmoved, rfl⟩ := h
    refine ⟨by simp, ?_⟩
    intro line column defect he
    cases he
    obtain rfl := hmoved.eq_behind
    rfl
  | ok h =>
    refine ⟨?_, by simp⟩
    intro u hu
    cases hu
    refine ⟨_, rfl, ?_⟩
    intro context options
    rw [render_eq, render_eq, render_eq, h, RenderOptions.finish_append]

/-- A closing tag without its section, on the second line of the whole text. -/
theorem parse_append_unexpectedClose :
    parse ("\x7b\x7bx\x7d\x7d\n, " ++ "y\x7b\x7b/s\x7d\x7d") =
      .error ⟨⟨2, 4⟩, .unexpectedClose "s"⟩ := by
  have ha : Segments.ofChars "\x7b\x7bx\x7d\x7d\n, ".toList =
      ⟨[([], ['x'])], ['\n', ',', ' ']⟩ := by
    rw [Segments.ofChars_of_some (t := ⟨[], ['x'], ['\n', ',', ' ']⟩) rfl,
      Segments.ofChars_of_none rfl]
  have hb : Segments.ofChars "y\x7b\x7b/s\x7d\x7d".toList = ⟨[(['y'], ['/', 's'])], []⟩ := by
    rw [Segments.ofChars_of_some (t := ⟨['y'], ['/', 's'], []⟩) rfl, Segments.ofChars_of_none rfl]
  have hok : parse "\x7b\x7bx\x7d\x7d\n, " = .ok ⟨[.placeholder "x" [], .literal "\n, "]⟩ := by
    rw [parse_eq, ha]
    rfl
  have herror : parse "y\x7b\x7b/s\x7d\x7d" = .error ⟨⟨1, 2⟩, .unexpectedClose "s"⟩ := by
    rw [parse_eq, hb]
    rfl
  refine (parse_append hok ?_ ?_).2 1 2 _ herror
  · rw [ha]
    decide
  · decide

end Template

end BibTemplate

import BibTemplate.Proofs.Template.TagBody
import BibTemplate.Proofs.Template.Tokens

/-!
# The grammar of templates

A grammar says which nodes a row of tokens stands for, section inside section. The
reading goes through the row once and keeps the open sections on a stack. What it has
read at any moment is a derivation with holes: one for each open section, each filled
as far as the reading has come. When no section is open there is no hole left, so the
reading succeeds on exactly the rows that the grammar derives.
-/
namespace BibTemplate

open Tag (IsPlaceholder IsSection)

/-- The nodes that tokens stand for inside `depth` sections. -/
inductive Derives : ℕ → List Token → List Node → Prop
  | nil {depth : ℕ} : Derives depth [] []
  | noText {depth : ℕ} {ts : List Token} {ns : List Node} :
      Derives depth ts ns → Derives depth (.text [] :: ts) ns
  | text {depth : ℕ} {t : List Char} {ts : List Token} {ns : List Node} :
      t ≠ [] → Derives depth ts ns → Derives depth (.text t :: ts) (.literal (.ofList t) :: ns)
  | placeholder {depth : ℕ} {b : List Char} {path : String} {filters : List Filter}
      {ts : List Token} {ns : List Node} :
      IsPlaceholder b path filters → Derives depth ts ns →
        Derives depth (.tag b :: ts) (.placeholder path filters :: ns)
  | block {depth : ℕ} {o c : List Char} {path : String} {negated : Bool}
      {inner ts : List Token} {body ns : List Node} :
      depth < maxDepth → IsSection (Tag.mark negated) o path → IsSection '/' c path →
        Derives (depth + 1) inner body → Derives depth ts ns →
        Derives depth (.tag o :: (inner ++ .tag c :: ts)) (.block path negated body :: ns)

theorem Derives.append {depth : ℕ} {ts us : List Token} {ns ms : List Node}
    (h : Derives depth ts ns) (k : Derives depth us ms) : Derives depth (ts ++ us) (ns ++ ms) := by
  induction h with
  | nil => exact k
  | noText _ ih => exact .noText (ih k)
  | text ht _ ih => exact .text ht (ih k)
  | placeholder hb _ ih => exact .placeholder hb (ih k)
  | block hd ho hc hi _ _ ih =>
    rw [List.cons_append, List.append_assoc, List.cons_append, List.cons_append]
    exact .block hd ho hc hi (ih k)

namespace Draft

/-- All that one token can do to a draft. -/
inductive Reads (d : Draft) : Token → Draft → Prop
  | text (t : List Char) : Reads d (.text t) (d.addText t)
  | placeholder {b : List Char} {path : String} {filters : List Filter} :
      IsPlaceholder b path filters →
        Reads d (.tag b)
          ⟨d.position.advance (braced b), d.opened, .placeholder path filters :: d.nodes⟩
  | opening {b : List Char} {path : String} {negated : Bool} :
      IsSection (Tag.mark negated) b path → d.opened.length < maxDepth →
        Reads d (.tag b) ⟨d.position.advance (braced b),
          ⟨path, negated, d.position, d.nodes⟩ :: d.opened, []⟩
  | closing {b : List Char} {s : OpenSection} {outer : List OpenSection} :
      IsSection '/' b s.path → d.opened = s :: outer →
        Reads d (.tag b) ⟨d.position.advance (braced b), outer,
          .block s.path s.negated d.nodes.reverse :: s.before⟩

theorem addBody_eq_ok_iff {d e : Draft} {b : List Char} :
    d.addBody b = .ok e ↔ ∃ tag f, Tag.IsBody b tag ∧ d.addTag tag = .ok f ∧
      { f with position := d.position.advance (braced b) } = e := by
  simp only [← Tag.ofBody_eq_ok_iff]
  unfold addBody
  split
  · rename_i defect he
    simp only [reduceCtorEq, false_iff]
    intro h
    obtain ⟨tag, f, ht, hf, -⟩ := h
    have hok := bind_eq_ok_iff.2 ⟨tag, ht, hf⟩
    rw [he] at hok
    cases hok
  · rename_i f hf
    obtain ⟨tag, ht, hf⟩ := bind_eq_ok_iff.1 hf
    rw [Except.ok.injEq]
    constructor
    · intro h
      exact ⟨tag, f, ht, hf, h⟩
    · intro h
      obtain ⟨tag', f', ht', hf', he⟩ := h
      cases ht.symm.trans ht'
      cases hf.symm.trans hf'
      exact he

theorem addToken_eq_ok_iff {d e : Draft} {t : Token} : d.addToken t = .ok e ↔ d.Reads t e := by
  cases t with
  | text t =>
    rw [addToken, Except.ok.injEq]
    constructor
    · intro h
      exact h ▸ .text t
    · intro h
      cases h
      rfl
  | tag b =>
    rw [addToken, addBody_eq_ok_iff]
    constructor
    · intro h
      obtain ⟨tag, f, hb, hf, rfl⟩ := h
      cases tag with
      | placeholder path filters =>
        cases hf
        exact .placeholder hb
      | opening negated path =>
        rw [addTag] at hf
        split at hf
        · cases hf
        · rename_i hlt
          cases hf
          exact .opening hb (by omega)
      | closing path =>
        rw [addTag] at hf
        split at hf
        · cases hf
        · rename_i s outer ho
          split at hf
          · rename_i hp
            cases hf
            exact .closing (hp ▸ hb) ho
          · cases hf
    · intro h
      cases h with
      | @placeholder _ path filters hb =>
        exact ⟨.placeholder path filters, d.push (.placeholder path filters), hb, rfl, rfl⟩
      | @opening _ path negated hb hlt =>
        refine ⟨.opening negated path,
          ⟨d.position, ⟨path, negated, d.position, d.nodes⟩ :: d.opened, []⟩, hb, ?_, rfl⟩
        rw [addTag, if_neg (by omega)]
      | @closing _ s outer hb ho =>
        refine ⟨.closing s.path,
          ⟨d.position, outer, .block s.path s.negated d.nodes.reverse :: s.before⟩, hb, ?_, rfl⟩
        simp only [addTag, ho, ↓reduceIte]

theorem Reads.addTokens_cons {d e : Draft} {t : Token} (h : d.Reads t e) (ts : List Token) :
    d.addTokens (t :: ts) = e.addTokens ts := by
  rw [addTokens, foldlM_cons_eq_bind, addToken_eq_ok_iff.2 h]
  rfl

end Draft

/-- What the grammar derives is read from every draft that has as many sections open. -/
theorem Derives.addTokens_eq {depth : ℕ} {ts : List Token} {ns : List Node}
    (h : Derives depth ts ns) (p : Text.Position) {opened : List OpenSection}
    (hd : opened.length = depth) (nodes : List Node) :
    (⟨p, opened, nodes⟩ : Draft).addTokens ts =
      .ok ⟨p.advance (ts.flatMap Token.chars), opened, ns.reverse ++ nodes⟩ := by
  induction h generalizing p opened nodes with
  | nil => rfl
  | noText _ ih => exact ih p hd nodes
  | @text depth t ts ns ht _ ih =>
    have hadd : (⟨p, opened, nodes⟩ : Draft).addText t =
        ⟨p.advance t, opened, .literal (.ofList t) :: nodes⟩ := by
      simp [Draft.addText, Draft.push, ht]
    rw [Draft.addTokens_text, hadd, ih _ hd]
    simp [Token.chars, Text.Position.advance_append]
  | placeholder hb _ ih =>
    rw [(Draft.Reads.placeholder hb).addTokens_cons, ih _ hd]
    simp [Token.chars, Text.Position.advance_append]
  | block hlt ho hc _ _ ihi ih =>
    have hopen : opened.length < maxDepth := hd ▸ hlt
    rw [(Draft.Reads.opening ho hopen).addTokens_cons, Draft.addTokens_append,
      ihi _ (by simp [hd])]
    simp only [Except.bind]
    rw [(Draft.Reads.closing hc rfl).addTokens_cons, ih _ hd]
    simp [Token.chars, Text.Position.advance_append]

/-- A derivation with a hole for each open section. The tokens are those read so far;
the nodes at every level stand last node first, as in a draft. -/
inductive Partly : List Token → List OpenSection → List Node → Prop
  | outer {ts : List Token} {nodes : List Node} :
      Derives 0 ts nodes.reverse → Partly ts [] nodes
  | inner {ts us : List Token} {b : List Char} {s : OpenSection} {opened : List OpenSection}
      {nodes : List Node} :
      Partly ts opened s.before → opened.length < maxDepth →
        IsSection (Tag.mark s.negated) b s.path → Derives (opened.length + 1) us nodes.reverse →
        Partly (ts ++ .tag b :: us) (s :: opened) nodes

theorem Partly.append {ts us : List Token} {opened : List OpenSection} {nodes ns : List Node}
    (h : Partly ts opened nodes) (k : Derives opened.length us ns) :
    Partly (ts ++ us) opened (ns.reverse ++ nodes) := by
  cases h with
  | outer h =>
    refine .outer ?_
    rw [List.reverse_append, List.reverse_reverse]
    exact h.append k
  | inner h hlt hb hi =>
    rw [List.append_assoc, List.cons_append]
    refine .inner h hlt hb ?_
    rw [List.reverse_append, List.reverse_reverse]
    exact hi.append k

/-- One token fills the innermost hole further, opens one or closes one. -/
theorem Partly.step {ts : List Token} {t : Token} {d e : Draft} (h : Partly ts d.opened d.nodes)
    (hr : d.Reads t e) : Partly (ts ++ [t]) e.opened e.nodes := by
  cases hr with
  | text t =>
    cases t with
    | nil =>
      have hempty : Derives d.opened.length [.text []] [] := .noText .nil
      exact h.append hempty
    | cons c t => exact h.append (.text (List.cons_ne_nil c t) .nil)
  | placeholder hb => exact h.append (.placeholder hb .nil)
  | opening hb hlt => exact .inner h hlt hb .nil
  | @closing b s outer hb ho =>
    rw [ho] at h
    cases h with
    | @inner ts us o _ _ _ h hlt ho hi =>
      have hblock := Derives.block hlt ho hb hi Derives.nil
      rw [List.append_assoc, List.cons_append]
      exact h.append hblock

theorem Partly.run {ts us : List Token} {d e : Draft} (h : Partly ts d.opened d.nodes)
    (hr : d.addTokens us = .ok e) : Partly (ts ++ us) e.opened e.nodes := by
  induction us generalizing ts d with
  | nil =>
    cases hr
    rwa [List.append_nil]
  | cons t us ih =>
    obtain ⟨f, hf, hr⟩ := bind_eq_ok_iff.1 hr
    have hstep := h.step (Draft.addToken_eq_ok_iff.1 hf)
    rw [List.append_cons]
    exact ih hstep hr

theorem Draft.finish_eq_ok_iff {d : Draft} {t : Template} :
    d.finish = .ok t ↔ d.opened = [] ∧ t.nodes = d.nodes.reverse := by
  obtain ⟨nodes⟩ := t
  unfold finish
  split <;> simp_all [eq_comm]

/-- A row of tokens is read to the end, with these nodes, just when the grammar derives
them. -/
theorem derives_iff {ts : List Token} {ns : List Node} :
    Derives 0 ts ns ↔ (Draft.empty.addTokens ts).bind Draft.finish = .ok ⟨ns⟩ := by
  rw [bind_eq_ok_iff]
  constructor
  · intro h
    refine ⟨_, h.addTokens_eq .start rfl [], Draft.finish_eq_ok_iff.2 ⟨rfl, ?_⟩⟩
    simp
  · intro h
    obtain ⟨e, he, hf⟩ := h
    obtain ⟨ho, hn⟩ := Draft.finish_eq_ok_iff.1 hf
    have hp : Partly [] Draft.empty.opened Draft.empty.nodes := .outer .nil
    have hp := hp.run he
    rw [ho] at hp
    cases hp with
    | outer h =>
      obtain rfl : ns = e.nodes.reverse := hn
      exact h

theorem Template.parse_eq_ok_iff {source : String} {ns : List Node} :
    Template.parse source = .ok ⟨ns⟩ ↔ Derives 0 (Segments.ofChars source.toList).tokens ns := by
  rw [Template.parse_eq, derives_iff]

/-- A text has exactly one decomposition into tags and the texts between them, and it is
read as the nodes that the grammar derives from that decomposition, if it derives any. -/
theorem Template.parse_iff_derives (source : String) :
    (∃! g : Segments, g.IsCut source.toList) ∧
      ∀ ns, Template.parse source = .ok ⟨ns⟩ ↔
        ∃ g : Segments, g.IsCut source.toList ∧ Derives 0 g.tokens ns := by
  have hcut := Segments.isCut_ofChars source.toList
  refine ⟨⟨_, hcut, fun g hg => hg.eq_ofChars⟩, ?_⟩
  intro ns
  rw [parse_eq_ok_iff]
  constructor
  · intro h
    exact ⟨_, hcut, h⟩
  · intro h
    obtain ⟨g, hg, hd⟩ := h
    exact hg.eq_ofChars ▸ hd

end BibTemplate

import BibTemplate.Proofs.Filter.Names
import BibTemplate.Proofs.Template.Grammar

/-!
# Canonical nodes

Reading never gives an empty text or two texts side by side, and a text that a tag
follows does not run into it. Paths are trimmed and free of what would end them early.
Nodes with these properties are canonical. That every template that is read has
canonical nodes follows from the grammar, since its tokens are cut from a text.
-/
namespace BibTemplate

open Tag (IsPlaceholder IsSection marks)

structure CanonicalPath (path : String) : Prop where
  ne_nil : path.toList ≠ []
  stripped : Text.Stripped Text.isBlank path.toList
  no_bar : '|' ∉ path.toList
  no_close : ¬ ['}', '}'] <:+: path.toList

def Node.isLiteral : Node → Bool
  | .literal _ => true
  | _ => false

/-- The nodes of one level, inside `depth` sections. Texts are apart from one another, and
what a text at the end of the level has to satisfy is `last`. -/
inductive CanonicalNodes : (List Char → Prop) → ℕ → List Node → Prop
  | nil {last : List Char → Prop} {depth : ℕ} : CanonicalNodes last depth []
  | text {last : List Char → Prop} {depth : ℕ} {t : String} :
      t.toList ≠ [] → last t.toList → CanonicalNodes last depth [.literal t]
  | textBefore {last : List Char → Prop} {depth : ℕ} {t : String} {n : Node} {ns : List Node} :
      t.toList ≠ [] → Unpaired '{' t.toList → n.isLiteral = false →
        CanonicalNodes last depth (n :: ns) → CanonicalNodes last depth (.literal t :: n :: ns)
  | placeholder {last : List Char → Prop} {depth : ℕ} {path : String} {filters : List Filter}
      {ns : List Node} :
      CanonicalPath path → (∀ m ∈ marks, path.toList.head? ≠ some m) →
        (∀ f ∈ filters, f.HasName) → CanonicalNodes last depth ns →
        CanonicalNodes last depth (.placeholder path filters :: ns)
  | block {last : List Char → Prop} {depth : ℕ} {path : String} {negated : Bool}
      {body ns : List Node} :
      depth < maxDepth → CanonicalPath path → CanonicalNodes (Unpaired '{') (depth + 1) body →
        CanonicalNodes last depth ns → CanonicalNodes last depth (.block path negated body :: ns)

/-- The nodes of a whole template: a text at the very end may have opening braces, but no
complete tag. -/
def Template.Canonical (t : Template) : Prop :=
  CanonicalNodes (fun s => ¬ HasTag s) 0 t.nodes

theorem canonicalPath_of_isSection {m : Char} {body : List Char} {path : String}
    (h : IsSection m body path) (hb : Unpaired '}' body) : CanonicalPath path := by
  obtain ⟨rest, ht, hp, hne, hbar⟩ := h
  have hrest : rest <:+: body := by
    have hsuf : rest <:+: Text.trim body := ht ▸ (List.suffix_cons m rest).isInfix
    exact hsuf.trans (Text.strip_infix _ _)
  have hpath : path.toList <:+: body := hp ▸ (Text.strip_infix _ _).trans hrest
  refine ⟨hne, hp ▸ Text.stripped_strip _ _, hbar, ?_⟩
  intro h
  exact hb.no_pair (h.trans hpath)

theorem first_prefix_intercalate (d : Char) (first : List Char) (parts : List (List Char)) :
    first <+: [d].intercalate (first :: parts) := by
  cases parts with
  | nil => simp
  | cons p ps => exact ⟨_, (by rw [List.intercalate_cons_cons, List.append_assoc])⟩

theorem forall_hasName {names : List (List Char)} {filters : List Filter}
    (h : List.Forall₂ (fun name f => Filter.ofName? (.ofList (Text.trim name)) = some f)
      names filters) : ∀ f ∈ filters, f.HasName := by
  induction h with
  | nil => simp
  | cons hname _ ih =>
    intro f hf
    rcases List.mem_cons.1 hf with rfl | hf
    · exact Filter.hasName_of_ofName? hname
    · exact ih f hf

theorem canonicalPath_of_isPlaceholder {body : List Char} {path : String}
    {filters : List Filter} (h : IsPlaceholder body path filters) (hb : Unpaired '}' body) :
    CanonicalPath path ∧ (∀ m ∈ marks, path.toList.head? ≠ some m) ∧
      ∀ f ∈ filters, f.HasName := by
  obtain ⟨first, names, hbody, hbar, hm, hp, hne, hfs⟩ := h
  have hfirst : first <+: body := hbody ▸ first_prefix_intercalate '|' first names
  have hpath : path.toList <:+: first := hp ▸ Text.strip_infix _ _
  have hhead : (Text.trim body).head? = path.toList.head? := by
    obtain ⟨r, hr⟩ := hfirst
    have hne' : Text.trim first ≠ [] := hp ▸ hne
    rw [← hr, ← hp]
    exact Text.head?_strip_append hne' r
  refine ⟨⟨hne, hp ▸ Text.stripped_strip _ _, ?_, ?_⟩, ?_, forall_hasName hfs⟩
  · intro h
    exact hbar first (by simp) (hpath.subset h)
  · intro h
    exact hb.no_pair (h.trans (hpath.trans hfirst.isInfix))
  · intro m hmem
    rw [← hhead]
    exact hm m hmem

theorem Tidy.append_tag {last : List Char → Prop} {us ts : List Token} {c : List Char} :
    Tidy last (us ++ .tag c :: ts) ↔
      Tidy (Unpaired '{') us ∧ Unpaired '}' c ∧ Tidy last ts := by
  induction us with
  | nil =>
    constructor
    · intro h
      cases h with
      | tag hc h => exact ⟨.nil, hc, h⟩
    · intro ⟨_, hc, h⟩
      exact .tag hc h
  | cons u us ih =>
    cases u with
    | tag b =>
      constructor
      · intro h
        cases h with
        | tag hb h => exact ⟨.tag hb (ih.1 h).1, (ih.1 h).2⟩
      · intro ⟨h, hc⟩
        cases h with
        | tag hb h => exact .tag hb (ih.2 ⟨h, hc⟩)
    | text t =>
      match us, ih with
      | [], ih =>
        constructor
        · intro h
          cases h with
          | textTag ht h => exact ⟨.text ht, (ih.1 h).2⟩
        · intro ⟨h, hc⟩
          cases h with
          | text ht => exact .textTag ht (ih.2 ⟨.nil, hc⟩)
      | .tag b :: us, ih =>
        constructor
        · intro h
          cases h with
          | textTag ht h => exact ⟨.textTag ht (ih.1 h).1, (ih.1 h).2⟩
        · intro ⟨h, hc⟩
          cases h with
          | textTag ht h => exact .textTag ht (ih.2 ⟨h, hc⟩)
      | .text _ :: us, _ =>
        constructor
        · intro h
          cases h
        · intro ⟨h, _⟩
          cases h

theorem Derives.nodes_of_tag {depth : ℕ} {b : List Char} {ts : List Token} {ns : List Node}
    (h : Derives depth (.tag b :: ts) ns) :
    ∃ n ms, ns = n :: ms ∧ n.isLiteral = false := by
  cases h with
  | placeholder => exact ⟨_, _, rfl, rfl⟩
  | block => exact ⟨_, _, rfl, rfl⟩

theorem Derives.canonicalNodes {last : List Char → Prop} {depth : ℕ} {ts : List Token}
    {ns : List Node} (h : Derives depth ts ns) (ht : Tidy last ts) :
    CanonicalNodes last depth ns := by
  induction h generalizing last with
  | nil => exact .nil
  | noText h ih =>
    cases ht with
    | text _ => exact ih .nil
    | textTag _ ht => exact ih ht
  | @text depth t ts ns hne h ih =>
    cases ht with
    | text hl =>
      cases h
      refine .text ?_ ?_ <;> rwa [String.toList_ofList]
    | textTag hu ht =>
      obtain ⟨n, ms, rfl, hn⟩ := h.nodes_of_tag
      refine .textBefore ?_ ?_ hn (ih ht) <;> rwa [String.toList_ofList]
  | placeholder hb _ ih =>
    cases ht with
    | tag hu ht =>
      obtain ⟨hpath, hm, hf⟩ := canonicalPath_of_isPlaceholder hb hu
      exact .placeholder hpath hm hf (ih ht)
  | block hlt ho hc _ _ ihi ih =>
    cases ht with
    | tag hu ht =>
      obtain ⟨hi, -, ht⟩ := Tidy.append_tag.1 ht
      exact .block hlt (canonicalPath_of_isSection ho hu) (ihi hi) (ih ht)

theorem Template.canonical_of_parse {source : String} {t : Template}
    (h : Template.parse source = .ok t) : t.Canonical := by
  have hcut := Segments.isCut_ofChars source.toList
  exact (parse_eq_ok_iff.1 h).canonicalNodes
    (Segments.tidy_tokens hcut.texts hcut.bodies hcut.tail)

end BibTemplate

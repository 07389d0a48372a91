import BibTemplate.Proofs.Template.Canonical

/-!
# Printing and reading again

The printed text of canonical nodes is cut up at exactly the tags that were printed, and
each tag is read as what it was printed from. So canonical nodes are read again as they
are, and they are exactly the nodes that templates have.
-/
namespace BibTemplate

open Tag (IsPlaceholder IsSection marks)

/-- The body of a printed placeholder. -/
def placeholderBody (path : String) (filters : List Filter) : List Char :=
  ' ' :: (path.toList ++ (filters.flatMap fun f => " | ".toList ++ f.name.toList) ++ [' '])

/-- The body of a printed section tag. -/
def sectionBody (m : Char) (path : String) : List Char := m :: ' ' :: (path.toList ++ [' '])

mutual

/-- What a node is printed as. -/
def Node.tokens : Node → List Token
  | .literal t => [.text t.toList]
  | .placeholder path filters => [.tag (placeholderBody path filters)]
  | .block path negated body =>
    .tag (sectionBody (Tag.mark negated) path) ::
      (Node.allTokens body ++ [.tag (sectionBody '/' path)])
termination_by structural n => n

def Node.allTokens : List Node → List Token
  | [] => []
  | n :: ns => n.tokens ++ Node.allTokens ns
termination_by structural ns => ns

end

mutual

theorem Node.chars_tokens : (n : Node) → n.tokens.flatMap Token.chars = n.print
  | .literal t => List.flatMap_singleton ..
  | .placeholder path filters => List.flatMap_singleton ..
  | .block path negated body => by
    rw [tokens, print, List.flatMap_cons, List.flatMap_append, chars_allTokens body,
      List.flatMap_singleton]
    rfl

theorem Node.chars_allTokens :
    (ns : List Node) → (Node.allTokens ns).flatMap Token.chars = Node.printAll ns
  | [] => rfl
  | n :: ns => by
    rw [allTokens, printAll, List.flatMap_append, chars_tokens n, chars_allTokens ns]

end

theorem unpaired_of_not_mem {d : Char} {s : List Char} (h : d ∉ s) : Unpaired d s :=
  ⟨fun hp => h (hp.subset (by simp)), fun hl => h (List.mem_of_getLast? hl)⟩

theorem isBlank_space : Text.isBlank ' ' = true := by decide

theorem not_mem_name {c : Char} (hc : c.isAlphanum = false) (f : Filter) : c ∉ f.name.toList := by
  intro h
  simp [Filter.isAlphanum_of_mem_name h] at hc

theorem stripped_name (f : Filter) : Text.Stripped Text.isBlank f.name.toList :=
  Text.stripped_of_forall fun _ hc => Text.isBlank_of_isAlphanum (Filter.isAlphanum_of_mem_name hc)

/-- A printed body, with each part padded by a blank on either side. -/
theorem intercalate_padded (s : List Char) (filters : List Filter) :
    ['|'].intercalate ((' ' :: (s ++ [' '])) ::
      filters.map fun f => ' ' :: (f.name.toList ++ [' '])) =
      ' ' :: (s ++ (filters.flatMap fun f => " | ".toList ++ f.name.toList) ++ [' ']) := by
  induction filters generalizing s with
  | nil => simp
  | cons f fs ih =>
    rw [List.map_cons, List.intercalate_cons_cons, ih]
    simp

theorem isPlaceholder_placeholderBody {path : String} {filters : List Filter}
    (hp : CanonicalPath path) (hm : ∀ m ∈ marks, path.toList.head? ≠ some m)
    (hf : ∀ f ∈ filters, f.HasName) :
    IsPlaceholder (placeholderBody path filters) path filters := by
  have htrim := hp.stripped.strip_pad isBlank_space
  refine ⟨' ' :: (path.toList ++ [' ']), filters.map fun f => ' ' :: (f.name.toList ++ [' ']),
    intercalate_padded path.toList filters, ?_, ?_, htrim, hp.ne_nil, ?_⟩
  · intro part hpart
    rcases List.mem_cons.1 hpart with rfl | hpart
    · simpa using hp.no_bar
    · obtain ⟨f, -, rfl⟩ := List.mem_map.1 hpart
      simpa using not_mem_name (by decide) f
  · intro m hmem
    have hbody : placeholderBody path filters = (' ' :: path.toList) ++
        ((filters.flatMap fun f => " | ".toList ++ f.name.toList) ++ [' ']) := by
      simp [placeholderBody]
    have hne : Text.strip Text.isBlank (' ' :: path.toList) = path.toList := by
      rw [Text.strip_cons isBlank_space, hp.stripped.strip_eq]
    have hhead := Text.head?_strip_append (p := Text.isBlank) (s := ' ' :: path.toList)
      (by rw [hne]; exact hp.ne_nil)
    rw [hbody, Text.trim, hhead, hne]
    exact hm m hmem
  · rw [List.forall₂_map_left_iff, List.forall₂_same]
    intro f hmem
    rw [Text.trim, (stripped_name f).strip_pad isBlank_space, String.ofList_toList]
    exact Filter.ofName?_name (hf f hmem)

theorem isSection_sectionBody {m : Char} {path : String} (hm : Text.isBlank m = false)
    (hp : CanonicalPath path) : IsSection m (sectionBody m path) path := by
  have hs : Text.Stripped Text.isBlank (m :: ' ' :: path.toList) := by
    constructor
    · intro c hc
      obtain rfl : m = c := by simpa using hc
      exact hm
    · intro c hc
      obtain ⟨a, s, hs⟩ := List.exists_cons_of_ne_nil hp.ne_nil
      refine hp.stripped.last c ?_
      rw [hs] at hc ⊢
      simpa using hc
  refine ⟨' ' :: path.toList, ?_, ?_, hp.ne_nil, hp.no_bar⟩
  · have hbody : sectionBody m path = m :: ' ' :: path.toList ++ [' '] := by simp [sectionBody]
    rw [hbody, Text.trim, Text.strip_concat isBlank_space, hs.strip_eq]
  · rw [Text.trim, Text.strip_cons isBlank_space, hp.stripped.strip_eq]

theorem unpaired_placeholderBody {path : String} (hp : CanonicalPath path)
    (filters : List Filter) : Unpaired '}' (placeholderBody path filters) := by
  have hpath : ¬ ['}', '}'] <:+: ' ' :: path.toList := by
    rw [List.infix_cons_iff, not_or]
    exact ⟨by simp [List.cons_prefix_cons], hp.no_close⟩
  have hrest : '}' ∉ (filters.flatMap fun f => " | ".toList ++ f.name.toList) ++ [' '] := by
    simp [not_mem_name (by decide : '}'.isAlphanum = false)]
  have hbody : placeholderBody path filters = (' ' :: path.toList) ++
      ((filters.flatMap fun f => " | ".toList ++ f.name.toList) ++ [' ']) := by
    simp [placeholderBody]
  rw [hbody]
  refine Unpaired.append hpath (unpaired_of_not_mem hrest) ?_
  intro h
  cases filters <;> simp at h

theorem unpaired_sectionBody (m : Char) {path : String} (hp : CanonicalPath path) :
    Unpaired '}' (sectionBody m path) := by
  have hpath : ¬ ['}', '}'] <:+: m :: ' ' :: path.toList := by
    rw [List.infix_cons_iff, List.infix_cons_iff, not_or, not_or]
    exact ⟨by simp [List.cons_prefix_cons], by simp [List.cons_prefix_cons], hp.no_close⟩
  have hbody : sectionBody m path = m :: ' ' :: path.toList ++ [' '] := by simp [sectionBody]
  rw [hbody]
  exact Unpaired.append hpath (unpaired_of_not_mem (by simp)) (by simp)

theorem Node.allTokens_cons_of_not_isLiteral {n : Node} (h : n.isLiteral = false)
    (ns : List Node) : ∃ b ts, Node.allTokens (n :: ns) = .tag b :: ts := by
  cases n with
  | literal t => cases h
  | placeholder path filters => exact ⟨_, _, rfl⟩
  | block path negated body => exact ⟨_, _, rfl⟩

theorem CanonicalNodes.tidy {last : List Char → Prop} {depth : ℕ} {ns : List Node}
    (h : CanonicalNodes last depth ns) : Tidy last (Node.allTokens ns) := by
  induction h with
  | nil => exact .nil
  | text _ hl => exact .text hl
  | @textBefore last depth t n ns _ hu hn _ ih =>
    obtain ⟨b, ts, hts⟩ := Node.allTokens_cons_of_not_isLiteral hn ns
    rw [hts] at ih
    have htokens : Node.allTokens (.literal t :: n :: ns) = .text t.toList :: .tag b :: ts := by
      rw [← hts]
      rfl
    rw [htokens]
    exact .textTag hu ih
  | placeholder hp _ _ _ ih => exact .tag (unpaired_placeholderBody hp _) ih
  | block _ hp _ _ ihb ih =>
    have hrest := Tidy.append_tag.2 ⟨ihb, unpaired_sectionBody '/' hp, ih⟩
    rw [Node.allTokens, Node.tokens, List.cons_append, List.append_assoc]
    exact .tag (unpaired_sectionBody _ hp) hrest

theorem CanonicalNodes.derives {last : List Char → Prop} {depth : ℕ} {ns : List Node}
    (h : CanonicalNodes last depth ns) : Derives depth (Node.allTokens ns) ns := by
  have htext : ∀ {depth : ℕ} {t : String} {ns : List Node}, t.toList ≠ [] →
      Derives depth (Node.allTokens ns) ns →
      Derives depth (Node.allTokens (.literal t :: ns)) (.literal t :: ns) := by
    intro depth t ns ht hd
    have := Derives.text ht hd
    rwa [String.ofList_toList] at this
  induction h with
  | nil => exact .nil
  | text ht _ => exact htext ht .nil
  | textBefore ht _ _ _ ih => exact htext ht ih
  | placeholder hp hm hf _ ih => exact .placeholder (isPlaceholder_placeholderBody hp hm hf) ih
  | @block last depth path negated body ns hlt hp _ _ ihb ih =>
    have hmark : Text.isBlank (Tag.mark negated) = false := by cases negated <;> decide
    rw [Node.allTokens, Node.tokens, List.cons_append, List.append_assoc]
    exact .block hlt (isSection_sectionBody hmark hp) (isSection_sectionBody (by decide) hp) ihb ih

theorem Template.parse_print_of_canonical {t : Template} (h : t.Canonical) :
    Template.parse t.print = .ok t := by
  have hprint : t.print.toList = (Node.allTokens t.nodes).flatMap Token.chars := by
    rw [print, String.toList_ofList, Node.chars_allTokens]
  rw [parse_eq, hprint, h.tidy.addTokens_ofChars]
  exact derives_iff.1 h.derives

/-- The templates that are read from texts are the canonical ones, and each of them is read
from its own printed text. -/
theorem Template.parse_print (t : Template) :
    (∀ source, Template.parse source = .ok t → t.Canonical) ∧
      (t.Canonical → Template.parse t.print = .ok t) :=
  ⟨fun _ h => canonical_of_parse h, parse_print_of_canonical⟩

/-- A loop with a shortened name, and opening braces at the end that no closing ones follow. -/
theorem parse_print_loop :
    let t : Template := ⟨[.block "authors" false [.placeholder "family" [.capitalize, .abbr 3],
      .literal ", "], .literal " \x7b\x7b"]⟩
    t.Canonical ∧ Template.parse t.print = .ok t := by
  intro t
  have hpath : ∀ path ∈ ["authors", "family"], CanonicalPath path := by
    intro path hp
    have hnoBlank : ∀ p ∈ ["authors", "family"], p.toList.all fun c => !Text.isBlank c := by
      decide
    have hstripped : ∀ c ∈ path.toList, Text.isBlank c = false := by
      simpa using hnoBlank path hp
    refine ⟨?_, Text.stripped_of_forall hstripped, ?_, ?_⟩ <;>
      (clear hstripped; revert path; decide)
  have ht : t.Canonical := by
    refine .block (by decide) (hpath _ (by simp))
      (.placeholder (hpath _ (by simp)) (by simp [marks]) ?_
        (.text (by decide) ⟨by decide, by decide⟩)) (.text (by decide) ?_)
    · intro f hf
      rcases List.mem_cons.1 hf with rfl | hf
      · trivial
      · obtain rfl : f = .abbr 3 := by simpa using hf
        exact ⟨by decide, by decide⟩
    · exact FirstTag.of?_eq_none_iff.1 (by decide)
  exact ⟨ht, (Template.parse_print t).2 ht⟩

end BibTemplate

import BibTemplate.Proofs.Outcomes
import BibTemplate.Proofs.Template.Cutting
import BibTemplate.Template.Draft

/-!
# Templates as tokens

A template text is a row of tokens, texts and tags, and a draft takes one token after
the other. Empty texts between tags make no difference. A row of tokens with no two
texts side by side may be read off its own text, as long as no text runs into the tag
behind it and the last one holds no tag.
-/
namespace BibTemplate

inductive Token where
  | text (text : List Char)
  | tag (body : List Char)

def Token.chars : Token → List Char
  | .text t => t
  | .tag b => braced b

/-- Each tag after the text before it, and the last text. -/
def Segments.tokens (g : Segments) : List Token :=
  (g.tags.flatMap fun p => [.text p.1, .tag p.2]) ++ [.text g.tail]

namespace Draft

def addToken (d : Draft) : Token → Except SyntaxError Draft
  | .text t => .ok (d.addText t)
  | .tag b => d.addBody b

/-- The draft after a row of tokens. -/
def addTokens (d : Draft) (ts : List Token) : Except SyntaxError Draft :=
  ts.foldlM addToken d

@[simp] theorem addTokens_nil (d : Draft) : d.addTokens [] = .ok d := rfl

@[simp] theorem addTokens_text (d : Draft) (t : List Char) (ts : List Token) :
    d.addTokens (.text t :: ts) = (d.addText t).addTokens ts := rfl

@[simp] theorem addTokens_tag (d : Draft) (b : List Char) (ts : List Token) :
    d.addTokens (.tag b :: ts) = (d.addBody b).bind (·.addTokens ts) := rfl

theorem addTokens_append (d : Draft) (ts us : List Token) :
    d.addTokens (ts ++ us) = (d.addTokens ts).bind (·.addTokens us) :=
  foldlM_append_eq_bind ..

@[simp] theorem addText_nil (d : Draft) : d.addText [] = d := rfl

/-- Reading segments is reading their tokens, from any draft on. -/
theorem foldlM_addSegment_eq (d : Draft) (g : Segments) :
    ((g.tags.foldlM addSegment d).map fun e => e.addText g.tail) = d.addTokens g.tokens := by
  obtain ⟨tags, tail⟩ := g
  induction tags generalizing d with
  | nil => rfl
  | cons p tags ih =>
    rw [foldlM_cons_eq_bind, addSegment]
    change _ = ((d.addText p.1).addBody p.2).bind fun e =>
      e.addTokens (Segments.tokens ⟨tags, tail⟩)
    cases (d.addText p.1).addBody p.2 with
    | error e => rfl
    | ok e => exact ih e

theorem ofSegments_eq (g : Segments) : ofSegments g = empty.addTokens g.tokens :=
  foldlM_addSegment_eq empty g

end Draft

theorem Template.parse_eq (source : String) :
    Template.parse source =
      (Draft.empty.addTokens (Segments.ofChars source.toList).tokens).bind Draft.finish := by
  rw [Template.parse, Draft.ofSegments_eq]

/-- The tokens are what their own text is cut into, but for empty texts. What the last
text has to satisfy is left open. -/
inductive Tidy (last : List Char → Prop) : List Token → Prop
  | nil : Tidy last []
  | text {t : List Char} : last t → Tidy last [.text t]
  | tag {b : List Char} {ts : List Token} :
      Unpaired '}' b → Tidy last ts → Tidy last (.tag b :: ts)
  | textTag {t b : List Char} {ts : List Token} :
      Unpaired '{' t → Tidy last (.tag b :: ts) → Tidy last (.text t :: .tag b :: ts)

theorem Segments.tidy_tokens {g : Segments} {last : List Char → Prop}
    (hx : ∀ p ∈ g.tags, Unpaired '{' p.1) (hb : ∀ p ∈ g.tags, Unpaired '}' p.2)
    (hlast : last g.tail) : Tidy last g.tokens := by
  obtain ⟨tags, tail⟩ := g
  induction tags with
  | nil => exact .text hlast
  | cons p tags ih =>
    have hrest := ih (fun q hq => hx q (by simp [hq])) (fun q hq => hb q (by simp [hq])) hlast
    exact .textTag (hx p (by simp)) (.tag (hb p (by simp)) hrest)

theorem Segments.tokens_ofChars_append {t b : List Char} (ht : Unpaired '{' t)
    (hb : Unpaired '}' b) (r : List Char) :
    (ofChars (t ++ (braced b ++ r))).tokens = .text t :: .tag b :: (ofChars r).tokens := by
  rw [ofChars_of_some (FirstTag.of?_append ht hb r)]
  rfl

/-- Reading a tidy row of tokens off its text gives the same as taking them as they are. -/
theorem Tidy.addTokens_ofChars {ts : List Token} (h : Tidy (fun t => ¬ HasTag t) ts) (d : Draft) :
    d.addTokens (Segments.ofChars (ts.flatMap Token.chars)).tokens = d.addTokens ts := by
  induction h generalizing d with
  | nil =>
    rw [List.flatMap_nil, Segments.ofChars_of_none rfl]
    rfl
  | text ht =>
    rw [List.flatMap_singleton, Token.chars,
      Segments.ofChars_of_none (FirstTag.of?_eq_none_iff.2 ht)]
    rfl
  | @tag b ts hb _ ih =>
    have hr := Segments.tokens_ofChars_append (unpaired_nil '{') hb (ts.flatMap Token.chars)
    rw [List.nil_append] at hr
    rw [List.flatMap_cons, Token.chars, hr, Draft.addTokens_text, Draft.addText_nil]
    simp only [Draft.addTokens_tag, ih]
  | @textTag t b ts ht htag ih =>
    cases htag with
    | tag hb _ =>
      have hr := Segments.tokens_ofChars_append ht hb (ts.flatMap Token.chars)
      have hn := Segments.tokens_ofChars_append (unpaired_nil '{') hb (ts.flatMap Token.chars)
      have hd := ih (d.addText t)
      rw [List.nil_append] at hn
      rw [List.flatMap_cons, Token.chars, hn, Draft.addTokens_text, Draft.addText_nil] at hd
      simp only [List.flatMap_cons, Token.chars]
      rw [hr, Draft.addTokens_text, hd, Draft.addTokens_text]

end BibTemplate

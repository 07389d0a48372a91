import BibTemplate.Proofs.Template.Grammar
import BibTemplate.Proofs.Template.TagDefects

/-!
# The spans of sections

A section reaches from the tag that opens it to the tag that closes it, with a row between
them in which all sections are opened and closed in pairs. Going through a template with the
kinds of the open sections on a stack shows at each place whether it lies in the span of a
positive section.
-/
namespace BibTemplate

open Tag (IsPlaceholder IsSection Unmarked)

/-- The mark that the body of a tag begins with. -/
def tagMark? (body : List Char) : Option Char := (Text.trim body).head?

/-- Rows in which sections are opened and closed in pairs. -/
inductive Paired : List Token → Prop
  | nil : Paired []
  | text {t : List Char} {ts : List Token} : Paired ts → Paired (.text t :: ts)
  | placeholder {b : List Char} {ts : List Token} :
      Unmarked b → Paired ts → Paired (.tag b :: ts)
  | block {o c : List Char} {negated : Bool} {inner ts : List Token} :
      tagMark? o = some (Tag.mark negated) → tagMark? c = some '/' →
        Paired inner → Paired ts → Paired (.tag o :: (inner ++ .tag c :: ts))

/-- The place between two rows lies between the two tags of a positive section. -/
inductive InPositive : List Token → List Token → Prop
  | between {o c : List Char} {inner rest : List Token} (front back : List Token) :
      tagMark? o = some '#' → tagMark? c = some '/' → Paired (inner ++ rest) →
        InPositive (front ++ .tag o :: inner) (rest ++ .tag c :: back)

/-- Whether each open section is positive, behind one more token; the innermost comes
first. -/
def Token.opened (opened : List Bool) : Token → List Bool
  | .text _ => opened
  | .tag body =>
    match tagMark? body with
    | some '#' => true :: opened
    | some '^' => false :: opened
    | some '/' => opened.tail
    | _ => opened

/-- The sections that are open behind a row. -/
def openedBehind (opened : List Bool) (ts : List Token) : List Bool :=
  ts.foldl Token.opened opened

@[simp] theorem openedBehind_nil (opened : List Bool) : openedBehind opened [] = opened := rfl

@[simp] theorem openedBehind_cons (opened : List Bool) (t : Token) (ts : List Token) :
    openedBehind opened (t :: ts) = openedBehind (t.opened opened) ts := rfl

theorem openedBehind_append (opened : List Bool) (ts us : List Token) :
    openedBehind opened (ts ++ us) = openedBehind (openedBehind opened ts) us :=
  List.foldl_append

section

variable {opened : List Bool} {o c b : List Char}

@[simp] theorem Token.opened_text (t : List Char) : Token.opened opened (.text t) = opened := rfl

theorem Token.opened_of_opening {negated : Bool} (h : tagMark? o = some (Tag.mark negated)) :
    Token.opened opened (.tag o) = (!negated) :: opened := by
  rw [Token.opened, h]
  cases negated <;> rfl

theorem Token.opened_of_closing (h : tagMark? c = some '/') :
    Token.opened opened (.tag c) = opened.tail := by
  rw [Token.opened, h]
  rfl

theorem Token.opened_of_unmarked (h : Unmarked b) : Token.opened opened (.tag b) = opened := by
  rw [Token.opened]
  split
  · exact absurd ‹_› (h '#' (by decide))
  · exact absurd ‹_› (h '^' (by decide))
  · exact absurd ‹_› (h '/' (by decide))
  · rfl

end

theorem Tag.IsSection.tagMark?_eq {m : Char} {b : List Char} {path : String}
    (h : IsSection m b path) : tagMark? b = some m := by
  obtain ⟨rest, hbody, -⟩ := h
  rw [tagMark?, hbody]
  rfl

theorem Tag.IsPlaceholder.unmarked {b : List Char} {path : String} {filters : List Filter}
    (h : IsPlaceholder b path filters) : Unmarked b := by
  obtain ⟨first, names, -, -, hmarks, -⟩ := h
  exact hmarks

theorem Derives.paired {depth : ℕ} {ts : List Token} {ns : List Node} (h : Derives depth ts ns) :
    Paired ts := by
  induction h with
  | nil => exact .nil
  | noText _ ih => exact .text ih
  | text _ _ ih => exact .text ih
  | placeholder hb _ ih => exact .placeholder hb.unmarked ih
  | block _ ho hc _ _ ihi ih =>
    exact .block ho.tagMark?_eq hc.tagMark?_eq ihi ih

namespace InPositive

variable {before after : List Token}

theorem append_left (h : InPositive before after) (ts : List Token) :
    InPositive (ts ++ before) after := by
  cases h with
  | between front back ho hc hinner =>
    rw [← List.append_assoc]
    exact .between _ back ho hc hinner

theorem append_right (h : InPositive before after) (ts : List Token) :
    InPositive before (after ++ ts) := by
  cases h with
  | between front back ho hc hinner =>
    rw [List.append_assoc, List.cons_append]
    exact .between front _ ho hc hinner

end InPositive

namespace Paired

variable {ts before after : List Token}

/-- At the end the same sections are open as at the beginning. -/
theorem openedBehind_eq (h : Paired ts) (opened : List Bool) : openedBehind opened ts = opened := by
  induction h generalizing opened with
  | nil => rfl
  | text _ ih => exact ih opened
  | placeholder hb _ ih => rw [openedBehind_cons, Token.opened_of_unmarked hb, ih]
  | block ho hc _ _ ihi ih =>
    rw [openedBehind_cons, openedBehind_append, openedBehind_cons, Token.opened_of_opening ho, ihi,
      Token.opened_of_closing hc, List.tail_cons, ih]

/-- At a place inside, what was open at the beginning is open under the sections around the
place, and a positive one among these has the place in its span. -/
theorem openedBehind_place (h : Paired (before ++ after)) (opened : List Bool) :
    ∃ around, openedBehind opened before = around ++ opened ∧
      (true ∈ around → InPositive before after) := by
  generalize hts : before ++ after = ts at h
  induction h generalizing before after opened with
  | nil =>
    obtain ⟨rfl, -⟩ := List.append_eq_nil_iff.1 hts
    exact ⟨[], rfl, by simp⟩
  | @text t ts _ ih =>
    rcases List.append_eq_cons_iff.1 hts with ⟨rfl, -⟩ | ⟨before, rfl, rfl⟩
    · exact ⟨[], rfl, by simp⟩
    · obtain ⟨around, heq, hpos⟩ := ih opened rfl
      exact ⟨around, heq, fun h => (hpos h).append_left [.text t]⟩
  | @placeholder b ts hm _ ih =>
    rcases List.append_eq_cons_iff.1 hts with ⟨rfl, -⟩ | ⟨before, rfl, rfl⟩
    · exact ⟨[], rfl, by simp⟩
    · obtain ⟨around, heq, hpos⟩ := ih opened rfl
      refine ⟨around, ?_, fun h => (hpos h).append_left [.tag b]⟩
      rw [openedBehind_cons, Token.opened_of_unmarked hm, heq]
  | @block o c negated inner ts ho hc hinner _ ihi ih =>
    rcases List.append_eq_cons_iff.1 hts with ⟨rfl, -⟩ | ⟨before, rfl, hrest⟩
    · exact ⟨[], rfl, by simp⟩
    -- Up to the closing tag the section of the block is around the place as well.
    have hinside : ∀ rest, before ++ rest = inner → after = rest ++ .tag c :: ts →
        ∃ around, openedBehind opened (.tag o :: before) = around ++ opened ∧
          (true ∈ around → InPositive (.tag o :: before) after) := by
      intro rest hinnerEq hafter
      obtain ⟨around, heq, hpos⟩ := ihi ((!negated) :: opened) hinnerEq
      refine ⟨around ++ [!negated], ?_, ?_⟩
      · rw [openedBehind_cons, Token.opened_of_opening ho, heq, List.append_assoc]
        rfl
      · intro htrue
        -- The positive section is one around the place inside the body, or the block itself.
        rw [hafter]
        rcases List.mem_append.1 htrue with htrue | htrue
        · exact ((hpos htrue).append_left [.tag o]).append_right (.tag c :: ts)
        · obtain rfl : negated = false := by simpa using htrue
          exact .between [] ts ho hc (hinnerEq ▸ hinner)
    rcases List.append_eq_append_iff.1 hrest with ⟨x, rfl, hx⟩ | ⟨rest, hinnerEq, hafter⟩
    · rcases List.cons_eq_append_iff.1 hx with ⟨rfl, rfl⟩ | ⟨x, rfl, rfl⟩
      · rw [List.append_nil] at hinside ⊢
        exact hinside [] (List.append_nil inner) rfl
      · obtain ⟨around, heq, hpos⟩ := ih opened rfl
        refine ⟨around, ?_, fun h => ?_⟩
        · rw [openedBehind_cons, openedBehind_append, openedBehind_cons,
            Token.opened_of_opening ho, hinner.openedBehind_eq, Token.opened_of_closing hc,
            List.tail_cons, heq]
        · have hshift := (hpos h).append_left (.tag o :: (inner ++ [.tag c]))
          simpa using hshift
    · exact hinside rest hinnerEq.symm hafter

/-- The stack holds a positive section just at the places in the spans of positive sections. -/
theorem mem_openedBehind_iff (h : Paired (before ++ after)) :
    true ∈ openedBehind [] before ↔ InPositive before after := by
  constructor
  · intro htrue
    obtain ⟨around, heq, hpos⟩ := h.openedBehind_place []
    rw [heq, List.append_nil] at htrue
    exact hpos htrue
  · intro hpos
    cases hpos with
    | @between o c inner rest front back ho hc hinner =>
      have hopen : Token.opened (openedBehind [] front) (.tag o) = true :: openedBehind [] front :=
        Token.opened_of_opening (show tagMark? o = some (Tag.mark false) from ho)
      obtain ⟨around, heq, -⟩ := hinner.openedBehind_place (true :: openedBehind [] front)
      rw [openedBehind_append, openedBehind_cons, hopen, heq]
      simp

end Paired

/-- The text of the row `after`, behind the row `before`, that lies in no tag and in the span of
no positive section. -/
inductive Outside : List Token → List Token → List Char → Prop
  | nil {before : List Token} : Outside before [] []
  | tag {before after : List Token} {b cs : List Char} :
      Outside (before ++ [.tag b]) after cs → Outside before (.tag b :: after) cs
  | hidden {before after : List Token} {t cs : List Char} :
      InPositive before (.text t :: after) → Outside (before ++ [.text t]) after cs →
        Outside before (.text t :: after) cs
  | shown {before after : List Token} {t cs : List Char} :
      ¬ InPositive before (.text t :: after) → Outside (before ++ [.text t]) after cs →
        Outside before (.text t :: after) (t ++ cs)

/-- The texts of a row that come while no positive section is open, one behind the other. -/
def shownTexts (opened : List Bool) : List Token → List Char
  | [] => []
  | .text t :: ts => (if true ∈ opened then [] else t) ++ shownTexts opened ts
  | .tag b :: ts => shownTexts (Token.opened opened (.tag b)) ts

theorem Paired.outside_iff {before after : List Token} {cs : List Char}
    (h : Paired (before ++ after)) :
    Outside before after cs ↔ cs = shownTexts (openedBehind [] before) after := by
  induction after generalizing before cs with
  | nil =>
    constructor
    · rintro ⟨⟩
      rfl
    · rintro rfl
      exact .nil
  | cons token after ih =>
    have hstep : Paired (before ++ [token] ++ after) := by simpa using h
    have hplace := h.mem_openedBehind_iff
    have hbehind : openedBehind [] (before ++ [token]) = token.opened (openedBehind [] before) :=
      openedBehind_append [] before [token]
    have hrest : Outside (before ++ [token]) after
        (shownTexts (openedBehind [] (before ++ [token])) after) := (ih hstep).2 rfl
    cases token with
    | tag b =>
      rw [shownTexts, ← hbehind]
      constructor
      · intro hout
        cases hout with
        | tag hout => exact (ih hstep).1 hout
      · rintro rfl
        exact .tag hrest
    | text t =>
      rw [Token.opened_text] at hbehind
      rw [shownTexts, ← hbehind]
      constructor
      · intro hout
        cases hout with
        | hidden hin hout =>
          rw [hbehind, if_pos (hplace.2 hin), ← hbehind]
          exact (ih hstep).1 hout
        | shown hnot hout =>
          rw [hbehind, if_neg (mt hplace.1 hnot), ← hbehind, ← (ih hstep).1 hout]
      · rintro rfl
        split
        · rename_i hopen
          exact .hidden (hplace.1 (hbehind ▸ hopen)) hrest
        · rename_i hopen
          exact .shown (fun hin => hopen (hbehind ▸ hplace.2 hin)) hrest

end BibTemplate

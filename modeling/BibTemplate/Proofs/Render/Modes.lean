import BibTemplate.Proofs.Template.Concatenation

/-!
# Modes

The modes of rendering do nothing but leave out characters at the end. The mode for citekeys
keeps the characters of citekeys in their order, so it may be applied part by part and again,
and the mode for arrays keeps all.
-/
namespace BibTemplate

/-- The characters of a citekey, by their ranges. -/
def IsCitekeyLetter (c : Char) : Prop :=
  'A' ≤ c ∧ c ≤ 'Z' ∨ 'a' ≤ c ∧ c ≤ 'z' ∨ '0' ≤ c ∧ c ≤ '9' ∨ c = '_' ∨ c = '-'

instance : DecidablePred IsCitekeyLetter := fun _ => inferInstanceAs (Decidable (_ ∨ _))

/-- The characters of a text that may stand in a citekey, in their order. -/
def citekeyLetters (s : String) : String :=
  .ofList (s.toList.filter fun c => IsCitekeyLetter c)

theorem isCitekeyChar_iff {c : Char} : isCitekeyChar c ↔ IsCitekeyLetter c := by
  have hranges : isCitekeyChar c = (((decide ('A' ≤ c ∧ c ≤ 'Z') ||
      (decide ('a' ≤ c) && decide (c ≤ 'z'))) || (decide ('0' ≤ c) && decide (c ≤ '9'))) ||
      c == '_' || c == '-') := rfl
  simp only [hranges, IsCitekeyLetter, Bool.or_eq_true, Bool.and_eq_true, decide_eq_true_eq,
    beq_iff_eq, or_assoc]

theorem citekeyLetters_citekeyLetters (s : String) :
    citekeyLetters (citekeyLetters s) = citekeyLetters s := by
  rw [citekeyLetters, citekeyLetters, String.toList_ofList, List.filter_filter]
  simp only [Bool.and_self]

theorem RenderOptions.finish_eq (o : RenderOptions) (s : String) :
    o.finish s = if o.sanitizeForCitekey then citekeyLetters s else s := by
  have hletters : isCitekeyChar = fun c => decide (IsCitekeyLetter c) := by
    funext c
    rw [Bool.eq_iff_iff, isCitekeyChar_iff, decide_eq_true_eq]
  rw [finish, hletters, citekeyLetters]

variable {t : Template} {context : Value} {yaml : Bool}

theorem Template.render_citekey (t : Template) (context : Value) (yaml : Bool) :
    t.render context ⟨true, yaml⟩ = citekeyLetters (t.render context ⟨false, yaml⟩) := by
  rw [t.render_eq, t.render_eq, RenderOptions.finish_eq, RenderOptions.finish_eq]
  rfl

theorem Template.render_yamlArray (t : Template) (context : Value) (citekey yaml : Bool) :
    t.render context ⟨citekey, yaml⟩ = t.render context ⟨citekey, false⟩ := rfl

/-- Two templates one behind the other show their texts one behind the other. -/
theorem Template.exists_parse_append {a b : String} {t u : Template} (ha : parse a = .ok t)
    (hpair : ¬ ['{', '{'] <:+: (Segments.ofChars a.toList).tail)
    (hseam : ¬ (a.toList.getLast? = some '{' ∧ b.toList.head? = some '{')) (hb : parse b = .ok u) :
    ∃ v, parse (a ++ b) = .ok v ∧ ∀ context options,
      v.render context options = t.render context options ++ u.render context options := by
  have halike := alike_parse_append ha hpair hseam
  rw [hb] at halike
  generalize parse (a ++ b) = x at halike
  cases halike with
  | ok h =>
    refine ⟨_, rfl, ?_⟩
    intro context options
    rw [render_eq, render_eq, render_eq, h, RenderOptions.finish_append]

end BibTemplate

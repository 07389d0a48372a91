import BibTemplate.Proofs.Text.Trimming
import BibTemplate.Text.Alphanumeric

/-!
# Words and their letters

A text falls apart into its words at the blank characters, and no character that is not blank
is lost. No letter and no digit is blank. A change of characters that makes none of them blank
and none of them less so changes the words one by one.
-/
namespace BibTemplate.Text

variable {p : Char → Bool} {f : Char → Char} {s w : List Char} {c : Char}

theorem strip_eq_nil_iff : strip p s = [] ↔ ∀ c ∈ s, p c := by
  rw [strip_eq_rdropWhile, List.rdropWhile_eq_nil_iff]
  constructor
  · intro h c hc
    rw [← List.takeWhile_append_dropWhile (p := p) (l := s), List.mem_append] at hc
    exact hc.elim List.mem_takeWhile_imp (h c)
  · intro h c hc
    exact h c ((List.dropWhile_suffix p).subset hc)

theorem strip_map (hf : ∀ c, p (f c) = p c) (s : List Char) :
    strip p (s.map f) = (strip p s).map f := by
  have hp : p ∘ f = p := funext hf
  simp only [strip, List.dropWhile_map, hp, ← List.map_reverse]

theorem eq_false_of_mem_splitOnP (h : w ∈ s.splitOnP p) : ∀ c ∈ w, p c = false := by
  induction s generalizing w with
  | nil =>
    obtain rfl : w = [] := by simpa using h
    exact List.forall_mem_nil _
  | cons a s ih =>
    obtain ⟨x, xs, hx⟩ := List.exists_cons_of_ne_nil (List.splitOnP_ne_nil p s)
    rw [hx] at ih
    rw [List.splitOnP_cons_eq_if_modifyHead, hx] at h
    split at h
    · rcases List.mem_cons.1 h with rfl | h
      · exact List.forall_mem_nil _
      · exact ih h
    · rename_i ha
      rcases List.mem_cons.1 h with rfl | h
      · exact List.forall_mem_cons.2 ⟨eq_false_of_ne_true ha, ih List.mem_cons_self⟩
      · exact ih (List.mem_cons_of_mem x h)

theorem exists_mem_splitOnP (h : c ∈ s) (hc : p c = false) : ∃ w ∈ s.splitOnP p, c ∈ w := by
  induction s with
  | nil => cases h
  | cons a s ih =>
    obtain ⟨x, xs, hx⟩ := List.exists_cons_of_ne_nil (List.splitOnP_ne_nil p s)
    rw [hx] at ih
    rw [List.splitOnP_cons_eq_if_modifyHead, hx]
    rcases List.mem_cons.1 h with rfl | h
    · rw [if_neg (by simp [hc])]
      exact ⟨c :: x, List.mem_cons_self, List.mem_cons_self⟩
    · obtain ⟨w, hw, hcw⟩ := ih h
      split
      · exact ⟨w, List.mem_cons_of_mem _ hw, hcw⟩
      · rcases List.mem_cons.1 hw with rfl | hw
        · exact ⟨a :: w, List.mem_cons_self, List.mem_cons_of_mem a hcw⟩
        · exact ⟨w, List.mem_cons_of_mem _ hw, hcw⟩

theorem splitOnP_map (hf : ∀ c, p (f c) = p c) (s : List Char) :
    (s.map f).splitOnP p = (s.splitOnP p).map (List.map f) := by
  induction s with
  | nil => rfl
  | cons a s ih =>
    obtain ⟨x, xs, hx⟩ := List.exists_cons_of_ne_nil (List.splitOnP_ne_nil p s)
    rw [List.map_cons, List.splitOnP_cons_eq_if_modifyHead, List.splitOnP_cons_eq_if_modifyHead,
      hf, ih, hx]
    split <;> rfl

theorem isBlank_of_mem_words (h : w ∈ words s) : ∀ c ∈ w, isBlank c = false :=
  eq_false_of_mem_splitOnP (List.mem_of_mem_filter h)

theorem exists_mem_words (h : c ∈ s) (hc : isBlank c = false) : ∃ w ∈ words s, c ∈ w := by
  obtain ⟨w, hw, hcw⟩ := exists_mem_splitOnP h hc
  refine ⟨w, List.mem_filter.2 ⟨hw, ?_⟩, hcw⟩
  simpa using List.ne_nil_of_mem hcw

theorem words_eq_singleton (hne : w ≠ []) (h : ∀ c ∈ w, isBlank c = false) : words w = [w] := by
  rw [words, List.splitOnP_eq_singleton h]
  simp [hne]

theorem words_map (hf : ∀ c, isBlank (f c) = isBlank c) (s : List Char) :
    words (s.map f) = (words s).map (List.map f) := by
  rw [words, splitOnP_map hf, List.filter_map, words]
  simp [Function.comp_def]

/-- The blank characters from U+0080 on. -/
def wideBlanks : List ℕ :=
  [0x85, 0xA0, 0x1680, 0x2000, 0x2001, 0x2002, 0x2003, 0x2004, 0x2005, 0x2006, 0x2007, 0x2008,
    0x2009, 0x200A, 0x2028, 0x2029, 0x202F, 0x205F, 0x3000]

theorem toNat_mem_wideBlanks (h : isBlank c) (hc : 0x80 ≤ c.toNat) : c.toNat ∈ wideBlanks := by
  simp only [isBlank, Bool.or_eq_true, Bool.and_eq_true, decide_eq_true_eq, beq_iff_eq] at h
  simp only [wideBlanks, List.mem_cons, List.not_mem_nil, or_false]
  omega

theorem not_within_of_mem_wideBlanks : ∀ n ∈ wideBlanks,
    (alphanumericRanges.any fun r => r.1 ≤ n && n ≤ r.2) = false := by
  decide +kernel

theorem isAlphanumeric_of_isBlank (h : isBlank c) : isAlphanumeric c = false := by
  have hascii : c.isAlphanum = false := by
    cases hc : c.isAlphanum with
    | false => rfl
    | true => exact absurd h (by simp [isBlank_of_isAlphanum hc])
  rw [isAlphanumeric, hascii, Bool.false_or, Bool.and_eq_false_imp, decide_eq_true_eq]
  intro hc
  exact not_within_of_mem_wideBlanks _ (toNat_mem_wideBlanks h hc)

end BibTemplate.Text

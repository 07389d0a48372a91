import BibTemplate.Text.Blank
import Mathlib.Data.List.DropRight

/-!
# Trimming

What trimming leaves is a piece of the text with no blank character at its ends, and
trimming such a text leaves it as it is. Trimming before a text is split makes no
difference to parts that are trimmed themselves. The words of a text are pieces of it.
-/
namespace BibTemplate.Text

/-- No character at either end satisfies `p`. -/
structure Stripped (p : Char → Bool) (s : List Char) : Prop where
  head : ∀ c, s.head? = some c → p c = false
  last : ∀ c, s.getLast? = some c → p c = false

variable {p : Char → Bool} {s : List Char} {c d : Char}

theorem strip_eq_rdropWhile (p : Char → Bool) (s : List Char) :
    strip p s = (s.dropWhile p).rdropWhile p := rfl

theorem strip_infix (p : Char → Bool) (s : List Char) : strip p s <:+: s :=
  (List.rdropWhile_prefix p (s.dropWhile p)).isInfix.trans (List.dropWhile_suffix p).isInfix

theorem head?_dropWhile_eq_false (h : (s.dropWhile p).head? = some c) : p c = false := by
  have := List.head?_dropWhile_not p s
  simpa [h] using this

theorem stripped_strip (p : Char → Bool) (s : List Char) : Stripped p (strip p s) := by
  constructor
  · intro c hc
    obtain ⟨t, ht⟩ := List.rdropWhile_prefix p (s.dropWhile p)
    refine head?_dropWhile_eq_false (s := s) ?_
    rw [← ht, List.head?_append]
    rw [strip_eq_rdropWhile] at hc
    simp [hc]
  · intro c hc
    rw [strip, List.getLast?_reverse] at hc
    exact head?_dropWhile_eq_false hc

theorem Stripped.dropWhile_eq (h : Stripped p s) : s.dropWhile p = s := by
  cases s with
  | nil => rfl
  | cons a s => exact List.dropWhile_cons_of_neg (by simp [h.head a rfl])

theorem Stripped.strip_eq (h : Stripped p s) : strip p s = s := by
  rw [strip, h.dropWhile_eq]
  have hr : Stripped p s.reverse := ⟨by simpa using h.last, by simpa using h.head⟩
  rw [hr.dropWhile_eq, List.reverse_reverse]

theorem strip_cons (h : p c = true) (s : List Char) : strip p (c :: s) = strip p s := by
  rw [strip, strip, List.dropWhile_cons_of_pos h]

theorem strip_concat (h : p c = true) (s : List Char) : strip p (s ++ [c]) = strip p s := by
  rw [strip_eq_rdropWhile, strip_eq_rdropWhile, List.dropWhile_append]
  split
  · rename_i hs
    rw [List.isEmpty_iff.1 hs, List.dropWhile_cons_of_pos h]
    rfl
  · exact List.rdropWhile_concat_pos p _ c h

theorem rdropWhile_cons (p : Char → Bool) (a : Char) (s : List Char) :
    (a :: s).rdropWhile p =
      if s.rdropWhile p = [] then [a].rdropWhile p else a :: s.rdropWhile p := by
  simp only [List.rdropWhile, List.reverse_cons, List.dropWhile_append, List.isEmpty_iff,
    List.reverse_eq_nil_iff]
  split <;> simp

theorem head?_strip (p : Char → Bool) (s : List Char) :
    (strip p s).head? = (s.dropWhile p).head? := by
  cases h : s.dropWhile p with
  | nil => rw [strip, h]; rfl
  | cons a t =>
    have ha : p a = false := head?_dropWhile_eq_false (s := s) (by rw [h]; rfl)
    rw [strip_eq_rdropWhile, h, rdropWhile_cons]
    split
    · rw [List.rdropWhile_singleton, if_neg (by simp [ha])]
      rfl
    · rfl

/-- The first character of a stripped text is not changed by what stands behind. -/
theorem head?_strip_append (h : strip p s ≠ []) (t : List Char) :
    (strip p (s ++ t)).head? = (strip p s).head? := by
  have hd : s.dropWhile p ≠ [] := by
    intro hd
    rw [strip, hd] at h
    exact h rfl
  obtain ⟨a, r, hr⟩ := List.exists_cons_of_ne_nil hd
  rw [head?_strip, head?_strip, List.dropWhile_append, hr]
  rfl

theorem isBlank_of_isAlphanum (h : c.isAlphanum) : isBlank c = false := by
  have hc : (65 ≤ c.toNat ∧ c.toNat ≤ 90 ∨ 97 ≤ c.toNat ∧ c.toNat ≤ 122) ∨
      48 ≤ c.toNat ∧ c.toNat ≤ 57 := by
    delta Char.isAlphanum Char.isAlpha Char.isUpper Char.isLower Char.isDigit at h
    simpa [UInt32.le_iff_toNat_le] using h
  simp only [isBlank, Bool.or_eq_false_iff, Bool.and_eq_false_iff, decide_eq_false_iff_not,
    beq_eq_false_iff_ne]
  omega

theorem stripped_of_forall (h : ∀ c ∈ s, p c = false) : Stripped p s :=
  ⟨fun c hc => h c (List.mem_of_head? hc), fun c hc => h c (List.mem_of_getLast? hc)⟩

theorem Stripped.strip_pad (h : Stripped p s) (hc : p c = true) :
    strip p (c :: (s ++ [c])) = s := by
  rw [strip_cons hc, strip_concat hc, h.strip_eq]

theorem not_mem_of_mem_splitOn {d : Char} {s part : List Char} (h : part ∈ s.splitOn d) :
    d ∉ part := by
  induction s generalizing part with
  | nil =>
    obtain rfl : part = [] := by simpa using h
    simp
  | cons a s ih =>
    obtain ⟨x, xs, hx⟩ := List.exists_cons_of_ne_nil (List.splitOn_ne_nil d s)
    rw [List.splitOn_cons_eq_if_modifyHead, hx] at h
    split at h
    · rcases List.mem_cons.1 h with rfl | h
      · simp
      · exact ih (hx ▸ h)
    · rename_i ha
      rcases List.mem_cons.1 h with rfl | h
      · have hd : d ∉ x := ih (by simp [hx])
        rw [List.mem_cons, not_or]
        exact ⟨fun he => ha (by simp [he]), hd⟩
      · exact ih (by simp [hx, h])

theorem map_strip_splitOn_dropWhile (hd : p d = false) (s : List Char) :
    ((s.dropWhile p).splitOn d).map (strip p) = (s.splitOn d).map (strip p) := by
  induction s with
  | nil => rfl
  | cons a s ih =>
    cases ha : p a with
    | false => rw [List.dropWhile_cons_of_neg (by simp [ha])]
    | true =>
      have hne : (a == d) = false := by
        rw [beq_eq_false_iff_ne]
        intro he
        subst he
        simp [ha] at hd
      rw [List.dropWhile_cons_of_pos ha, ih, List.splitOn_cons_eq_if_modifyHead, hne]
      obtain ⟨x, xs, hx⟩ := List.exists_cons_of_ne_nil (List.splitOn_ne_nil d s)
      simp [hx, strip_cons ha]

theorem map_rdropWhile_splitOn_concat (hd : p d = false) (hc : p c = true) (s : List Char) :
    ((s ++ [c]).splitOn d).map (List.rdropWhile p) = (s.splitOn d).map (List.rdropWhile p) := by
  have hne : (c == d) = false := by
    rw [beq_eq_false_iff_ne]
    intro he
    subst he
    simp [hc] at hd
  induction s with
  | nil => simp [List.splitOn_cons_eq_if_modifyHead, hne, hc]
  | cons a s ih =>
    rw [List.cons_append, List.splitOn_cons_eq_if_modifyHead, List.splitOn_cons_eq_if_modifyHead]
    obtain ⟨x, xs, hx⟩ := List.exists_cons_of_ne_nil (List.splitOn_ne_nil d s)
    obtain ⟨y, ys, hy⟩ := List.exists_cons_of_ne_nil (List.splitOn_ne_nil d (s ++ [c]))
    rw [hx, hy] at ih ⊢
    obtain ⟨hh, ht⟩ : y.rdropWhile p = x.rdropWhile p ∧
        ys.map (List.rdropWhile p) = xs.map (List.rdropWhile p) := by simpa using ih
    split
    · simp [hh, ht]
    · simp [rdropWhile_cons p a x, rdropWhile_cons p a y, hh, ht]

theorem map_rdropWhile_splitOn_rdropWhile (hd : p d = false) (s : List Char) :
    ((s.rdropWhile p).splitOn d).map (List.rdropWhile p) =
      (s.splitOn d).map (List.rdropWhile p) := by
  induction s using List.reverseRecOn with
  | nil => simp
  | append_singleton s c ih =>
    cases hc : p c with
    | false => rw [List.rdropWhile_concat_neg p s c (by simp [hc])]
    | true =>
      rw [List.rdropWhile_concat_pos p s c hc, ih, map_rdropWhile_splitOn_concat hd hc]

theorem strip_rdropWhile (p : Char → Bool) (s : List Char) :
    strip p (s.rdropWhile p) = strip p s := by
  induction s using List.reverseRecOn with
  | nil => rfl
  | append_singleton s c ih =>
    cases hc : p c with
    | false => rw [List.rdropWhile_concat_neg p s c (by simp [hc])]
    | true => rw [List.rdropWhile_concat_pos p s c hc, ih, strip_concat hc]

/-- Parts that are stripped come out the same, whether the whole has been stripped or not. -/
theorem map_strip_splitOn_strip (hd : p d = false) (s : List Char) :
    ((strip p s).splitOn d).map (strip p) = (s.splitOn d).map (strip p) := by
  have h := congrArg (List.map (strip p))
    (map_rdropWhile_splitOn_rdropWhile hd (s.dropWhile p))
  simp only [List.map_map, Function.comp_def, strip_rdropWhile] at h
  rw [strip_eq_rdropWhile, h, map_strip_splitOn_dropWhile hd]

/-- Of the parts of a text the first is a prefix: it grows with a character in front of it,
which the others do not. -/
theorem exists_splitOnP_eq_cons (p : Char → Bool) (s : List Char) :
    ∃ first rest, s.splitOnP p = first :: rest ∧ first <+: s ∧ ∀ part ∈ rest, part <:+: s := by
  induction s with
  | nil => exact ⟨[], [], by simp, List.nil_prefix, List.forall_mem_nil _⟩
  | cons c s ih =>
    obtain ⟨first, rest, hsplit, hfirst, hrest⟩ := ih
    rw [List.splitOnP_cons_eq_if_modifyHead, hsplit]
    split
    · refine ⟨[], first :: rest, rfl, List.nil_prefix, ?_⟩
      rw [List.forall_mem_cons]
      exact ⟨List.infix_cons hfirst.isInfix, fun part h => List.infix_cons (hrest part h)⟩
    · exact ⟨c :: first, rest, rfl, (List.prefix_cons_inj c).2 hfirst,
        fun part h => List.infix_cons (hrest part h)⟩

theorem infix_of_mem_words {w : List Char} (h : w ∈ words s) : w <:+: s := by
  obtain ⟨first, rest, hsplit, hfirst, hrest⟩ := exists_splitOnP_eq_cons isBlank s
  have hmem : w ∈ s.splitOnP isBlank := List.mem_of_mem_filter h
  rw [hsplit] at hmem
  rcases List.mem_cons.1 hmem with rfl | hmem
  · exact hfirst.isInfix
  · exact hrest w hmem

end BibTemplate.Text

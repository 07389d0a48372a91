import BibTemplate.Proofs.Filter.Chains
import BibTemplate.Proofs.Text.Words

/-!
# The word of a title

The word that stands for a title is a piece of it without punctuation around it, and it is
missing only where the title has neither letters nor digits. Which word that is does not depend
on the case of the ASCII letters.
-/
namespace BibTemplate.Filter

variable {f : Char → Char} {s w : List Char}

/-- A word without punctuation around it: it begins and ends with a letter or a digit, and none of
its characters is blank. -/
structure Bare (w : List Char) : Prop where
  first : ∃ c, w.head? = some c ∧ Text.isAlphanumeric c
  last : ∃ c, w.getLast? = some c ∧ Text.isAlphanumeric c
  solid : ∀ c ∈ w, Text.isBlank c = false

theorem Bare.ne_nil (h : Bare w) : w ≠ [] := by
  rintro rfl
  obtain ⟨c, hc, -⟩ := h.first
  cases hc

theorem bare_iff : Bare w ↔ w ≠ [] ∧ Text.Stripped (fun c => !Text.isAlphanumeric c) w ∧
    ∀ c ∈ w, Text.isBlank c = false := by
  constructor
  · intro h
    obtain ⟨c, hc, hfirst⟩ := h.first
    obtain ⟨d, hd, hlast⟩ := h.last
    refine ⟨h.ne_nil, ⟨?_, ?_⟩, h.solid⟩
    · intro a ha
      obtain rfl : c = a := by simpa [hc] using ha
      rw [hfirst, Bool.not_true]
    · intro a ha
      obtain rfl : d = a := by simpa [hd] using ha
      rw [hlast, Bool.not_true]
  · rintro ⟨hne, hw, hsolid⟩
    have hhead := List.head?_eq_some_head hne
    have hlast := List.getLast?_eq_some_getLast hne
    exact ⟨⟨_, hhead, by simpa using hw.head _ hhead⟩, ⟨_, hlast, by simpa using hw.last _ hlast⟩,
      hsolid⟩

theorem bare_of_mem_bareWords (h : w ∈ bareWords s) : Bare w := by
  obtain ⟨hmem, hne⟩ := List.mem_filter.1 h
  obtain ⟨word, hword, rfl⟩ := List.mem_map.1 hmem
  refine bare_iff.2 ⟨by simpa using hne, Text.stripped_strip _ word, ?_⟩
  exact fun c hc => Text.isBlank_of_mem_words hword c ((Text.strip_infix _ word).subset hc)

theorem bareWords_eq_nil_iff : bareWords s = [] ↔ ∀ c ∈ s, Text.isAlphanumeric c = false := by
  rw [bareWords, List.filter_eq_nil_iff, List.forall_mem_map]
  simp only [Bool.not_eq_true', List.isEmpty_eq_false_iff, not_not, Text.strip_eq_nil_iff]
  constructor
  · intro h c hc
    cases hblank : Text.isBlank c with
    | true => exact Text.isAlphanumeric_of_isBlank hblank
    | false =>
      obtain ⟨word, hword, hmem⟩ := Text.exists_mem_words hc hblank
      exact h word hword c hmem
  · intro h word hword c hc
    exact h c ((Text.infix_of_mem_words hword).subset hc)

theorem Bare.bareWords_eq (h : Bare w) : bareWords w = [w] := by
  rw [bareWords, Text.words_eq_singleton h.ne_nil h.solid, List.map_singleton,
    (bare_iff.1 h).2.1.strip_eq]
  simp [h.ne_nil]

theorem titleWord_mem_bareWords (h : bareWords s ≠ []) : titleWord s ∈ bareWords s := by
  rw [titleWord]
  cases hfind : (bareWords s).find? isSignificant with
  | some word => exact List.mem_of_find?_eq_some hfind
  | none =>
    rw [Option.none_or, List.head?_eq_some_head h]
    exact List.head_mem h

theorem titleWord_eq_nil_iff : titleWord s = [] ↔ bareWords s = [] := by
  constructor
  · intro h
    by_contra hne
    exact (bare_of_mem_bareWords (titleWord_mem_bareWords hne)).ne_nil h
  · intro h
    rw [titleWord, h]
    rfl

theorem bare_titleWord (h : titleWord s ≠ []) : Bare (titleWord s) :=
  bare_of_mem_bareWords (titleWord_mem_bareWords (mt titleWord_eq_nil_iff.2 h))

theorem Bare.titleWord_eq (h : Bare w) : titleWord w = w := by
  rw [titleWord, h.bareWords_eq]
  by_cases hw : isSignificant w <;> simp [hw]

theorem titleWord_titleWord (s : List Char) : titleWord (titleWord s) = titleWord s := by
  by_cases h : titleWord s = []
  · rw [h]
    rfl
  · exact (bare_titleWord h).titleWord_eq

theorem isAlphanumeric_toLower (c : Char) :
    Text.isAlphanumeric c.toLower = Text.isAlphanumeric c := by
  have hletter : ∀ d : Char, d.isAlpha → Text.isAlphanumeric d := by
    intro d hd
    simp [Text.isAlphanumeric, Char.isAlphanum, hd]
  cases halpha : c.isAlpha with
  | false => rw [toLower_of_not_isAlpha halpha]
  | true => rw [hletter c halpha, hletter _ (by rwa [Char.isAlpha_toLower_eq_isAlpha])]

theorem isSignificant_map (hf : ∀ c, (f c).toLower = c.toLower) (w : List Char) :
    isSignificant (w.map f) = isSignificant w := by
  have hlower : (w.map f).map Char.toLower = w.map Char.toLower := by
    rw [List.map_map]
    exact List.map_congr_left fun c _ => hf c
  rw [isSignificant, isSignificant, isStopWord, isStopWord, hlower, List.length_map]

/-- A change of characters that keeps all letters up to their case changes the words of a title one
by one. -/
theorem bareWords_map (hf : ∀ c, (f c).toLower = c.toLower) (s : List Char) :
    bareWords (s.map f) = (bareWords s).map (List.map f) := by
  have hblank : ∀ c, Text.isBlank (f c) = Text.isBlank c := by
    intro c
    rw [← isBlank_toLower, hf, isBlank_toLower]
  have halpha : ∀ c, (!Text.isAlphanumeric (f c)) = !Text.isAlphanumeric c := by
    intro c
    rw [← isAlphanumeric_toLower, hf, isAlphanumeric_toLower]
  rw [bareWords, bareWords, Text.words_map hblank, List.map_map]
  have hstrip : (Text.strip fun c => !Text.isAlphanumeric c) ∘ List.map f =
      List.map f ∘ Text.strip fun c => !Text.isAlphanumeric c :=
    funext fun word => Text.strip_map halpha word
  rw [hstrip, ← List.map_map, List.filter_map]
  simp [Function.comp_def]

theorem titleWord_map (hf : ∀ c, (f c).toLower = c.toLower) (s : List Char) :
    titleWord (s.map f) = (titleWord s).map f := by
  have hsignificant : isSignificant ∘ List.map f = isSignificant := funext (isSignificant_map hf)
  rw [titleWord, titleWord, bareWords_map hf, List.find?_map, hsignificant, List.head?_map,
    ← Option.map_or]
  cases ((bareWords s).find? isSignificant).or (bareWords s).head? <;> rfl

/-- The word of a title is missing exactly where the title has neither letters nor digits. Any
other time it is a piece of the title without blanks that begins and ends with a letter or a digit.
It is the word of itself, and it makes no difference whether the case is set before or after it
is chosen. -/
theorem apply_titleword (s : String) :
    (titleword.apply s = "" ↔ ∀ c ∈ s.toList, Text.isAlphanumeric c = false) ∧
    (titleword.apply s ≠ "" →
      (titleword.apply s).toList <:+: s.toList ∧ Bare (titleword.apply s).toList) ∧
    titleword.apply (titleword.apply s) = titleword.apply s ∧
    titleword.apply (lowercase.apply s) = lowercase.apply (titleword.apply s) ∧
    titleword.apply (uppercase.apply s) = uppercase.apply (titleword.apply s) := by
  simp only [← String.toList_inj, ne_eq, toList_apply, String.toList_empty]
  refine ⟨titleWord_eq_nil_iff.trans bareWords_eq_nil_iff, ?_, titleWord_titleWord s.toList, ?_, ?_⟩
  · exact fun h => ⟨isInfix_titleWord s.toList, bare_titleWord h⟩
  · exact titleWord_map Char.toLower_toLower_eq_toLower s.toList
  · exact titleWord_map Char.toLower_toUpper_eq_toLower s.toList

/-- A title whose first long word is a stop word in capitals, and whose word keeps the accent. -/
example : titleword.apply "«THIS» is: Étude-no.1, op. 10" = "Étude-no.1" := by
  decide +kernel

end BibTemplate.Filter

import BibTemplate.Template.Printer
import BibTemplate.Template.Segments
import Mathlib.Data.List.Infix

/-!
# Where a template text is cut

A text has at most one decomposition into tags and the texts between them, and the
reading of segments finds it. The decomposition is said without the reading: the
pieces join to the whole, no piece runs into the braces behind it, and no complete
tag is left in the last text.
-/
namespace BibTemplate

/-- A text that does not run into a pair of characters `d` right behind it: it holds no
such pair and does not end in `d`. -/
structure Unpaired (d : Char) (s : List Char) : Prop where
  no_pair : ¬ [d, d] <:+: s
  no_last : s.getLast? ≠ some d

/-- Two opening braces stand in the text, and two closing ones somewhere after them. -/
def HasTag (s : List Char) : Prop :=
  ∃ x y z, s = x ++ '{' :: '{' :: (y ++ '}' :: '}' :: z)

theorem pair_infix_append {d : Char} {s t : List Char} :
    [d, d] <:+: s ++ t ↔
      [d, d] <:+: s ∨ [d, d] <:+: t ∨ (s.getLast? = some d ∧ t.head? = some d) := by
  rw [List.infix_append_iff]
  constructor
  · intro h
    rcases h with h | h | ⟨u, v, huv, hu, hv⟩
    · exact .inl h
    · exact .inr (.inl h)
    · match u, huv with
      | [], huv => exact .inr (.inl (huv ▸ hv.isInfix))
      | [a], huv =>
        obtain ⟨rfl, rfl⟩ : a = d ∧ v = [d] := by simpa [eq_comm] using huv
        obtain ⟨s', rfl⟩ := hu
        obtain ⟨t', rfl⟩ := hv
        exact .inr (.inr ⟨by simp, by simp⟩)
      | a :: b :: u, huv =>
        obtain ⟨rfl, rfl, rfl, rfl⟩ : a = d ∧ b = d ∧ u = [] ∧ v = [] := by
          simpa [eq_comm] using huv
        exact .inl hu.isInfix
  · intro h
    rcases h with h | h | ⟨hs, ht⟩
    · exact .inl h
    · exact .inr (.inl h)
    · refine .inr (.inr ⟨[d], [d], rfl, ?_, ?_⟩)
      · obtain ⟨s', rfl⟩ := List.getLast?_eq_some_iff.1 hs
        exact ⟨s', rfl⟩
      · obtain ⟨t', rfl⟩ := List.head?_eq_some_iff.1 ht
        exact ⟨t', rfl⟩

theorem unpaired_iff {d : Char} {s : List Char} : Unpaired d s ↔ ¬ [d, d] <:+: s ++ [d] := by
  rw [pair_infix_append]
  constructor
  · intro hu h
    obtain ⟨hp, hl⟩ := hu
    rcases h with h | h | h
    · exact hp h
    · exact absurd h.length_le (by simp)
    · exact hl h.1
  · intro h
    exact ⟨fun hp => h (.inl hp), fun hl => h (.inr (.inr ⟨hl, rfl⟩))⟩

theorem unpaired_nil (d : Char) : Unpaired d [] :=
  ⟨fun h => absurd h.length_le (by simp), by simp⟩

theorem unpaired_cons {d a : Char} {s : List Char} :
    Unpaired d (a :: s) ↔ ¬ (a = d ∧ (s ++ [d]).head? = some d) ∧ Unpaired d s := by
  have hp : [d, d] <+: a :: (s ++ [d]) ↔ a = d ∧ (s ++ [d]).head? = some d := by
    cases s <;> simp [List.cons_prefix_cons, eq_comm]
  rw [unpaired_iff, unpaired_iff, List.cons_append, List.infix_cons_iff, not_or, hp]

/-- A text that stays clear of a pair may be put before another one, unless the two meet
in a pair. -/
theorem Unpaired.append {d : Char} {s t : List Char} (hs : ¬ [d, d] <:+: s) (ht : Unpaired d t)
    (hst : ¬ (s.getLast? = some d ∧ (t ++ [d]).head? = some d)) : Unpaired d (s ++ t) := by
  rw [unpaired_iff, List.append_assoc, pair_infix_append]
  intro h
  rcases h with h | h | h
  · exact hs h
  · exact unpaired_iff.1 ht h
  · exact hst h

/-- Behind the first pair stands all that stands behind any other. -/
theorem Unpaired.suffix {d : Char} {p q x w : List Char} (hp : Unpaired d p)
    (h : p ++ d :: d :: q = x ++ d :: d :: w) : w <:+ q := by
  induction p generalizing x with
  | nil =>
    rcases x with _ | ⟨a, _ | ⟨b, x⟩⟩
    · obtain rfl : q = w := by simpa using h
      exact List.suffix_rfl
    · obtain ⟨-, rfl⟩ : d = a ∧ q = d :: w := by simpa using h
      exact List.suffix_cons d w
    · obtain ⟨-, -, rfl⟩ : d = a ∧ d = b ∧ q = x ++ d :: d :: w := by simpa using h
      exact ⟨x ++ [d, d], by simp⟩
  | cons a p ih =>
    obtain ⟨ha, hp'⟩ := unpaired_cons.1 hp
    cases x with
    | nil =>
      obtain ⟨rfl, hr⟩ : a = d ∧ p ++ d :: d :: q = d :: w := by simpa using h
      refine absurd ⟨rfl, ?_⟩ ha
      cases p with
      | nil => rfl
      | cons b p => simp_all
    | cons b x =>
      obtain ⟨-, hr⟩ : a = b ∧ p ++ d :: d :: q = x ++ d :: d :: w := by simpa using h
      exact ih hp' hr

theorem cutPair_cons (d a : Char) (s : List Char) :
    cutPair d (a :: s) =
      if a = d ∧ s.head? = some d then some ([], s.tail)
      else (cutPair d s).map fun p => (a :: p.1, p.2) := by
  cases s with
  | nil => simp [cutPair]
  | cons b s => simp [cutPair]

theorem cutPair_append {d : Char} {x : List Char} (h : Unpaired d x) (r : List Char) :
    cutPair d (x ++ d :: d :: r) = some (x, r) := by
  induction x with
  | nil => simp [cutPair]
  | cons a x ih =>
    obtain ⟨ha, hx⟩ := unpaired_cons.1 h
    have hne : ¬ (a = d ∧ (x ++ d :: d :: r).head? = some d) := by
      intro h'
      refine ha ⟨h'.1, ?_⟩
      cases x with
      | nil => rfl
      | cons b x => exact h'.2
    rw [List.cons_append, cutPair_cons, if_neg hne, ih hx]
    rfl

theorem eq_of_cutPair {d : Char} {s x r : List Char} (h : cutPair d s = some (x, r)) :
    s = x ++ d :: d :: r ∧ Unpaired d x := by
  induction s generalizing x with
  | nil => simp [cutPair] at h
  | cons a s ih =>
    rw [cutPair_cons] at h
    split at h
    · rename_i hs
      obtain ⟨rfl, hd⟩ := hs
      obtain ⟨t, rfl⟩ := List.head?_eq_some_iff.1 hd
      obtain ⟨rfl, rfl⟩ : x = [] ∧ r = t := by simpa [eq_comm] using h
      exact ⟨rfl, unpaired_nil _⟩
    · rename_i hs
      obtain ⟨⟨y, q⟩, hy, hp⟩ := Option.map_eq_some_iff.1 h
      obtain ⟨rfl, rfl⟩ : a :: y = x ∧ q = r := by simpa using hp
      obtain ⟨rfl, hu⟩ := ih hy
      refine ⟨rfl, unpaired_cons.2 ⟨?_, hu⟩⟩
      intro h'
      refine hs ⟨h'.1, ?_⟩
      cases y with
      | nil => rfl
      | cons b y => exact h'.2

theorem cutPair_eq_none_iff {d : Char} {s : List Char} :
    cutPair d s = none ↔ ¬ [d, d] <:+: s := by
  induction s with
  | nil => simp [cutPair]
  | cons a s ih =>
    have hp : [d, d] <+: a :: s ↔ a = d ∧ s.head? = some d := by
      cases s <;> simp [List.cons_prefix_cons, eq_comm]
    rw [cutPair_cons, List.infix_cons_iff, not_or, hp, ← ih]
    split <;> simp_all

theorem braced_append (b r : List Char) : braced b ++ r = '{' :: '{' :: (b ++ '}' :: '}' :: r) := by
  simp [braced]

theorem FirstTag.of?_append {x b : List Char} (hx : Unpaired '{' x) (hb : Unpaired '}' b)
    (r : List Char) : FirstTag.of? (x ++ (braced b ++ r)) = some ⟨x, b, r⟩ := by
  simp only [FirstTag.of?, braced_append, cutPair_append hx, cutPair_append hb, Option.map_some]

theorem FirstTag.eq_of_of? {s : List Char} {t : FirstTag} (h : FirstTag.of? s = some t) :
    s = t.text ++ (braced t.body ++ t.rest) ∧ Unpaired '{' t.text ∧ Unpaired '}' t.body := by
  unfold FirstTag.of? at h
  split at h
  · simp at h
  · rename_i x r hx
    obtain ⟨⟨b, q⟩, hb, rfl⟩ := Option.map_eq_some_iff.1 h
    obtain ⟨rfl, hux⟩ := eq_of_cutPair hx
    obtain ⟨rfl, hub⟩ := eq_of_cutPair hb
    exact ⟨by simp [braced], hux, hub⟩

theorem FirstTag.of?_eq_none_iff {s : List Char} : FirstTag.of? s = none ↔ ¬ HasTag s := by
  unfold FirstTag.of? HasTag
  constructor
  · intro h htag
    obtain ⟨x, y, z, rfl⟩ := htag
    cases hc : cutPair '{' (x ++ '{' :: '{' :: (y ++ '}' :: '}' :: z)) with
    | none => exact cutPair_eq_none_iff.1 hc ⟨x, y ++ '}' :: '}' :: z, by simp⟩
    | some p =>
      rw [hc] at h
      have hn := cutPair_eq_none_iff.1 (Option.map_eq_none_iff.1 h)
      obtain ⟨he, hu⟩ := eq_of_cutPair hc
      -- The first pair comes no later than the one given, so the closing braces are behind it.
      have hs : y ++ '}' :: '}' :: z <:+ p.2 := hu.suffix he.symm
      exact hn (List.IsInfix.trans ⟨y, z, by simp⟩ hs.isInfix)
  · intro h
    split
    · rfl
    · rename_i x r hx
      rw [Option.map_eq_none_iff, cutPair_eq_none_iff]
      intro hclose
      obtain ⟨y, z, rfl⟩ := hclose
      obtain ⟨rfl, -⟩ := eq_of_cutPair hx
      exact h ⟨x, y, z, by simp⟩

theorem not_hasTag_of_unpaired {t : List Char} (h : Unpaired '{' t) : ¬ HasTag t := by
  intro htag
  obtain ⟨x, y, z, rfl⟩ := htag
  exact h.no_pair ⟨x, y ++ '}' :: '}' :: z, by simp⟩

namespace Segments

/-- The whole text that the segments are cut from. -/
def join (g : Segments) : List Char :=
  (g.tags.flatMap fun p => p.1 ++ braced p.2) ++ g.tail

theorem join_append (done more : List (List Char × List Char)) (tail : List Char) :
    join ⟨done ++ more, tail⟩ = join ⟨done, []⟩ ++ join ⟨more, tail⟩ := by
  simp [join]

theorem join_cons (t b : List Char) (more : List (List Char × List Char)) (tail : List Char) :
    join ⟨(t, b) :: more, tail⟩ = t ++ (braced b ++ join ⟨more, tail⟩) := by
  simp [join]

theorem join_tail (done : List (List Char × List Char)) (t : List Char) :
    join ⟨done, t⟩ = join ⟨done, []⟩ ++ t := by
  simp [join]

/-- The segments are those of the text: they join to it, a text before a tag does not run
into the opening braces nor a body into the closing ones, and no tag is left at the end. -/
structure IsCut (g : Segments) (s : List Char) : Prop where
  join_eq : g.join = s
  texts : ∀ p ∈ g.tags, Unpaired '{' p.1
  bodies : ∀ p ∈ g.tags, Unpaired '}' p.2
  tail : ¬ HasTag g.tail

theorem isCut_ofChars (s : List Char) : (ofChars s).IsCut s := by
  induction hn : s.length using Nat.strong_induction_on generalizing s with
  | _ n ih =>
    cases hf : FirstTag.of? s with
    | none =>
      rw [ofChars_of_none hf]
      exact ⟨by simp [join], by simp, by simp, FirstTag.of?_eq_none_iff.1 hf⟩
    | some t =>
      have hlt : t.rest.length < n := hn ▸ FirstTag.length_rest_lt hf
      obtain ⟨hs, hx, hb⟩ := FirstTag.eq_of_of? hf
      have hr := ih _ hlt t.rest rfl
      rw [ofChars_of_some hf]
      refine ⟨?_, ?_, ?_, hr.tail⟩
      · have hj := hr.join_eq
        simp only [join] at hj
        rw [join, List.flatMap_cons, List.append_assoc, hj, List.append_assoc, ← hs]
      · intro p hp
        rcases List.mem_cons.1 hp with rfl | hp
        · exact hx
        · exact hr.texts p hp
      · intro p hp
        rcases List.mem_cons.1 hp with rfl | hp
        · exact hb
        · exact hr.bodies p hp

theorem IsCut.uncons {p : List Char × List Char} {tags : List (List Char × List Char)}
    {tail s : List Char} (h : IsCut ⟨p :: tags, tail⟩ s) :
    s = p.1 ++ (braced p.2 ++ join ⟨tags, tail⟩) ∧ Unpaired '{' p.1 ∧ Unpaired '}' p.2 ∧
      IsCut ⟨tags, tail⟩ (join ⟨tags, tail⟩) := by
  refine ⟨?_, h.texts p (by simp), h.bodies p (by simp), ⟨rfl, ?_, ?_, h.tail⟩⟩
  · rw [← h.join_eq]
    simp [join]
  · intro q hq
    exact h.texts q (List.mem_cons_of_mem p hq)
  · intro q hq
    exact h.bodies q (List.mem_cons_of_mem p hq)

theorem IsCut.eq_ofChars {g : Segments} {s : List Char} (h : g.IsCut s) : g = ofChars s := by
  obtain ⟨tags, tail⟩ := g
  induction tags generalizing s with
  | nil =>
    have hs : tail = s := by simpa [join] using h.join_eq
    have hn : ¬ HasTag s := hs ▸ h.tail
    rw [ofChars_of_none (FirstTag.of?_eq_none_iff.2 hn), hs]
  | cons p tags ih =>
    obtain ⟨hs, hx, hb, hr⟩ := h.uncons
    rw [hs, ofChars_of_some (FirstTag.of?_append hx hb _), ← ih hr]

/-- Segments stay those of their text when the text is longer, but for the last one, which
may fall apart. -/
theorem IsCut.ofChars_append_tail {g : Segments} {s : List Char} (h : g.IsCut s)
    (t : List Char) :
    ofChars (s ++ t) = ⟨g.tags ++ (ofChars (g.tail ++ t)).tags, (ofChars (g.tail ++ t)).tail⟩ := by
  obtain ⟨tags, tail⟩ := g
  induction tags generalizing s with
  | nil =>
    obtain rfl : tail = s := by simpa [join] using h.join_eq
    rfl
  | cons p tags ih =>
    obtain ⟨hj, hx, hb, hr⟩ := h.uncons
    rw [hj, List.append_assoc, List.append_assoc]
    rw [ofChars_of_some (FirstTag.of?_append hx hb _), ih hr]
    rfl

section

variable {done more : List (List Char × List Char)} {t b tail s : List Char}

/-- In front of a tag the text is cut as the whole is. -/
theorem IsCut.ofChars_before (h : IsCut ⟨done ++ (t, b) :: more, tail⟩ s) :
    ofChars (join ⟨done, t⟩) = ⟨done, t⟩ := by
  have hcut : IsCut ⟨done, t⟩ (join ⟨done, t⟩) := by
    refine ⟨rfl, ?_, ?_, ?_⟩
    · exact fun p hp => h.texts p (by simp [hp])
    · exact fun p hp => h.bodies p (by simp [hp])
    · exact not_hasTag_of_unpaired (h.texts (t, b) (by simp))
  exact hcut.eq_ofChars.symm

/-- Up to the end of a tag the text is cut as the whole is. -/
theorem IsCut.ofChars_through (h : IsCut ⟨done ++ (t, b) :: more, tail⟩ s) :
    ofChars (join ⟨done, t⟩ ++ braced b) = ⟨done ++ [(t, b)], []⟩ := by
  have hcut : IsCut ⟨done ++ [(t, b)], []⟩ (join ⟨done, t⟩ ++ braced b) := by
    refine ⟨?_, ?_, ?_, ?_⟩
    · rw [join_append, join_cons, join_tail done t]
      simp [join]
    · intro p hp
      exact h.texts p (by simp only [List.mem_append, List.mem_cons] at hp ⊢; tauto)
    · intro p hp
      exact h.bodies p (by simp only [List.mem_append, List.mem_cons] at hp ⊢; tauto)
    · exact not_hasTag_of_unpaired (unpaired_nil '{')
  exact hcut.eq_ofChars.symm

end

end Segments

end BibTemplate

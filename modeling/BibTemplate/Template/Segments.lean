/-!
# Text and tags

A template text falls apart into tags and the texts between them. A tag begins at
the first two opening braces and ends at the first two closing braces after them.
Opening braces that no closing braces follow are text, so the last segment is all
that comes after the last complete tag.
-/
namespace BibTemplate

/-- Cuts a text at its first two neighbouring characters `d`, which belong to neither
part. -/
def cutPair (d : Char) : List Char → Option (List Char × List Char)
  | a :: b :: r =>
    if a = d ∧ b = d then some ([], r)
    else (cutPair d (b :: r)).map fun p => (a :: p.1, p.2)
  | _ => none

theorem length_of_cutPair {d : Char} {s x r : List Char} (h : cutPair d s = some (x, r)) :
    s.length = x.length + 2 + r.length := by
  induction s generalizing x with
  | nil => simp [cutPair] at h
  | cons a s ih =>
    cases s with
    | nil => simp [cutPair] at h
    | cons b s =>
      rw [cutPair] at h
      split at h
      · simp only [Option.some.injEq, Prod.mk.injEq] at h
        obtain ⟨rfl, rfl⟩ := h
        simp
        omega
      · obtain ⟨p, hp, h⟩ := Option.map_eq_some_iff.1 h
        simp only [Prod.mk.injEq] at h
        obtain ⟨rfl, rfl⟩ := h
        have := ih hp
        simp only [List.length_cons] at this ⊢
        omega

/-- The text before the first complete tag, the body of the tag, and what follows it. -/
structure FirstTag where
  text : List Char
  body : List Char
  rest : List Char
  deriving DecidableEq, Repr

def FirstTag.of? (s : List Char) : Option FirstTag :=
  match cutPair '{' s with
  | none => none
  | some (text, r) => (cutPair '}' r).map fun p => ⟨text, p.1, p.2⟩

theorem FirstTag.length_rest_lt {s : List Char} {t : FirstTag} (h : FirstTag.of? s = some t) :
    t.rest.length < s.length := by
  unfold FirstTag.of? at h
  split at h
  · simp at h
  · rename_i hp
    obtain ⟨q, hq, rfl⟩ := Option.map_eq_some_iff.1 h
    have := length_of_cutPair hp
    have := length_of_cutPair hq
    simp only
    omega

/-- A template text cut up: the complete tags, each as the text before it and its body,
and the text after the last of them. -/
structure Segments where
  tags : List (List Char × List Char)
  tail : List Char
  deriving DecidableEq, Repr

def Segments.ofChars (s : List Char) : Segments :=
  match _found : FirstTag.of? s with
  | none => ⟨[], s⟩
  | some t =>
    let more := ofChars t.rest
    ⟨(t.text, t.body) :: more.tags, more.tail⟩
termination_by s.length
decreasing_by exact FirstTag.length_rest_lt _found

theorem Segments.ofChars_of_none {s : List Char} (h : FirstTag.of? s = none) :
    ofChars s = ⟨[], s⟩ := by
  rw [ofChars]
  split
  · rfl
  · simp_all

theorem Segments.ofChars_of_some {s : List Char} {t : FirstTag} (h : FirstTag.of? s = some t) :
    ofChars s = ⟨(t.text, t.body) :: (ofChars t.rest).tags, (ofChars t.rest).tail⟩ := by
  rw [ofChars]
  split
  · simp_all
  · rename_i u hu
    cases hu.symm.trans h
    rfl

end BibTemplate

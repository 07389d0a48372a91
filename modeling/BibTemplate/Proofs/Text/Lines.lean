import BibTemplate.Proofs.Text.Places
import BibTemplate.Proofs.Text.Trimming

/-!
# Places among the lines of a text

A place may be found by going down the lines of a text and then along one of them. It is
the place that counting the characters in front of it arrives at, and it leaves no choice
where the text is to be parted.
-/
namespace BibTemplate.Text.Position

/-- Going down to the line `p.line` of the text `s` and along it past all columns in front
of `p.column` parts the text into `before` and `rest`. -/
def Parts (p : Position) (s before rest : List Char) : Prop :=
  ∃ above left right below, s.splitOn '\n' = above ++ (left ++ right) :: below ∧
    p.line = above.length + 1 ∧ p.column = left.length + 1 ∧
    ['\n'].intercalate (above ++ [left]) = before ∧
    ['\n'].intercalate (right :: below) = rest

theorem intercalate_seam (d : Char) (above below : List (List Char)) (left right : List Char) :
    [d].intercalate (above ++ (left ++ right) :: below) =
      [d].intercalate (above ++ [left]) ++ [d].intercalate (right :: below) := by
  induction above with
  | nil => cases below <;> simp [List.intercalate_cons_cons]
  | cons a above ih =>
    rw [List.cons_append, List.intercalate_cons_of_ne_nil (by simp), ih, List.cons_append,
      List.intercalate_cons_of_ne_nil (l := a) (by simp), List.append_assoc (a ++ [d])]

theorem advance_of_notMem {s : List Char} (h : '\n' ∉ s) (p : Position) :
    p.advance s = ⟨p.line, p.column + s.length⟩ := by
  rw [advance_eq, List.count_eq_zero.2 h, if_neg h, Nat.add_zero]

theorem advance_intercalate {above : List (List Char)} {left : List Char}
    (ha : ∀ l ∈ above, '\n' ∉ l) (hl : '\n' ∉ left) (p : Position) :
    p.advance (['\n'].intercalate (above ++ [left])) =
      ⟨p.line + above.length, (if above = [] then p.column else 1) + left.length⟩ := by
  induction above generalizing p with
  | nil => simp [advance_of_notMem hl]
  | cons a above ih =>
    rw [List.cons_append, List.intercalate_cons_of_ne_nil (by simp), List.append_assoc,
      advance_append, advance_of_notMem (ha a (by simp)), List.singleton_append, advance_cons]
    have hnext : next ⟨p.line, p.column + a.length⟩ '\n' = ⟨p.line + 1, 1⟩ := rfl
    rw [hnext, ih fun l hl => ha l (by simp [hl])]
    simp [Nat.add_assoc, Nat.add_comm 1]

/-- The place behind a text is found by going down its lines. -/
theorem parts_advance (before rest : List Char) :
    (start.advance before).Parts (before ++ rest) before rest := by
  obtain ⟨above, left, hleft⟩ : ∃ above left, before.splitOn '\n' = above ++ [left] :=
    ⟨_, _, (List.dropLast_append_getLast (List.splitOn_ne_nil '\n' before)).symm⟩
  obtain ⟨right, below, hright⟩ := List.exists_cons_of_ne_nil (List.splitOn_ne_nil '\n' rest)
  have hbefore : ['\n'].intercalate (above ++ [left]) = before := by
    rw [← hleft, List.intercalate_splitOn]
  have hrest : ['\n'].intercalate (right :: below) = rest := by
    rw [← hright, List.intercalate_splitOn]
  have habove : ∀ l ∈ above ++ [left], '\n' ∉ l :=
    fun l hl => not_mem_of_mem_splitOn (hleft ▸ hl)
  have hbelow : ∀ l ∈ right :: below, '\n' ∉ l :=
    fun l hl => not_mem_of_mem_splitOn (hright ▸ hl)
  have hinit : ∀ l ∈ above, '\n' ∉ l := fun l hl => habove l (by simp [hl])
  have hplace := advance_intercalate hinit (habove left (by simp)) start
  rw [hbefore] at hplace
  refine ⟨above, left, right, below, ?_, ?_, ?_, hbefore, hrest⟩
  · rw [← hbefore, ← hrest, ← intercalate_seam, List.splitOn_intercalate '\n' _ (by simp)]
    intro l hl
    simp only [List.mem_append, List.mem_cons] at hl
    rcases hl with hl | rfl | hl
    · exact habove l (by simp [hl])
    · rw [List.mem_append, not_or]
      exact ⟨habove left (by simp), hbelow right (by simp)⟩
    · exact hbelow l (by simp [hl])
  · rw [hplace]
    simp [start, Nat.add_comm]
  · rw [hplace]
    simp [start, Nat.add_comm]

/-- A place leaves no choice where to part the text. -/
theorem Parts.unique {p : Position} {s before before' rest rest' : List Char}
    (h : p.Parts s before rest) (h' : p.Parts s before' rest') :
    before = before' ∧ rest = rest' := by
  obtain ⟨above, left, right, below, hs, hline, hcolumn, rfl, rfl⟩ := h
  obtain ⟨above', left', right', below', hs', hline', hcolumn', rfl, rfl⟩ := h'
  obtain ⟨rfl, htail⟩ := List.append_inj (hs.symm.trans hs') (by omega)
  obtain ⟨hmiddle, rfl⟩ := List.cons.inj htail
  obtain ⟨rfl, rfl⟩ := List.append_inj hmiddle (by omega)
  exact ⟨rfl, rfl⟩

end BibTemplate.Text.Position

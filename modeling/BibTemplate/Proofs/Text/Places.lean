import BibTemplate.Text.Position
import Mathlib.Data.List.DropRight

/-!
# Places behind a text

The line behind a text counts its line feeds, and the column the characters after the
last of them. A place in a text is the same place in a longer text that ends with it,
moved by the lines and columns of what comes before.
-/
namespace BibTemplate.Text.Position

/-- What stands after the last line feed. -/
def lastLine (s : List Char) : List Char := s.rtakeWhile (· ≠ '\n')

theorem lastLine_concat_of_ne {c : Char} (h : c ≠ '\n') (s : List Char) :
    lastLine (s ++ [c]) = lastLine s ++ [c] :=
  List.rtakeWhile_concat_pos _ s c (by simpa using h)

theorem lastLine_eq_self {s : List Char} (h : '\n' ∉ s) : lastLine s = s := by
  rw [lastLine, List.rtakeWhile_eq_self_iff]
  intro c hc
  have hne : c ≠ '\n' := fun he => h (he ▸ hc)
  simpa using hne

theorem advance_eq (p : Position) (s : List Char) :
    p.advance s = ⟨p.line + s.count '\n',
      if '\n' ∈ s then (lastLine s).length + 1 else p.column + s.length⟩ := by
  induction s using List.reverseRecOn with
  | nil => rfl
  | append_singleton s c ih =>
    rw [advance_append, ih, advance_cons, advance_nil, next]
    by_cases hc : c = '\n'
    · subst hc
      simp [lastLine, Nat.add_assoc]
    · have hmem : '\n' ∈ s ++ [c] ↔ '\n' ∈ s := by simp [eq_comm, hc]
      have hcount : (s ++ [c]).count '\n' = s.count '\n' := by
        simp [hc]
      simp only [hc, hmem, hcount, ↓reduceIte, lastLine_concat_of_ne hc, List.length_append,
        List.length_singleton]
      split <;> simp [Nat.add_assoc]

theorem advance_start (s : List Char) :
    start.advance s = ⟨s.count '\n' + 1, (lastLine s).length + 1⟩ := by
  rw [advance_eq]
  split
  · simp [start, Nat.add_comm]
  · rename_i h
    simp [start, lastLine_eq_self h, Nat.add_comm]

/-- The place `q` of a text, moved by the text `s` in front of it. -/
def behind (s : List Char) (q : Position) : Position :=
  ⟨q.line + s.count '\n',
    if 1 < q.line then q.column else q.column + (lastLine s).length⟩

/-- A place in a text moves as a whole when another text is put in front. -/
theorem advance_append_start (s t : List Char) :
    start.advance (s ++ t) = behind s (start.advance t) := by
  rw [advance_append, advance_start s, advance_start t, advance_eq, behind]
  have hline : 1 < t.count '\n' + 1 ↔ '\n' ∈ t := by
    rw [← List.count_pos_iff]
    omega
  simp only [hline]
  split
  · simp [Nat.add_comm, Nat.add_left_comm]
  · rename_i h
    simp only [lastLine_eq_self h, mk.injEq]
    omega

end BibTemplate.Text.Position

import BibTemplate.Filter.Basic
import BibTemplate.Proofs.Text.Trimming
import Mathlib

/-!
# The case of letters

Three filters set the case of the letters in a text. What they make of it depends on the text
only up to the case of its ASCII letters, and up to that they leave it as it is. So of two of
them the later one decides, and it makes no difference whether the text is cut before or after.
-/
namespace BibTemplate.Filter

/-- The same character, or the same ASCII letter in the other case. -/
def SameLetter (c d : Char) : Prop :=
  c = d ∨ c.isAlpha ∧ d.isAlpha ∧ c.toLower = d.toLower

variable {c d : Char} {f g : Filter}

theorem toLower_of_not_isAlpha (h : c.isAlpha = false) : c.toLower = c := by
  refine Char.toLower_eq_of_not_isUpper fun hupper => ?_
  simp [Char.isAlpha, hupper] at h

theorem sameLetter_iff : SameLetter c d ↔ c.toLower = d.toLower := by
  constructor
  · rintro (rfl | ⟨-, -, h⟩)
    · rfl
    · exact h
  · intro h
    have halpha : c.isAlpha = d.isAlpha := by
      rw [← Char.isAlpha_toLower_eq_isAlpha c, h, Char.isAlpha_toLower_eq_isAlpha]
    cases hd : d.isAlpha with
    | true => exact .inr ⟨halpha.trans hd, hd, h⟩
    | false =>
      rw [toLower_of_not_isAlpha (halpha.trans hd), toLower_of_not_isAlpha hd] at h
      exact .inl h

theorem forall₂_sameLetter_iff {s t : List Char} :
    List.Forall₂ SameLetter s t ↔ s.map Char.toLower = t.map Char.toLower := by
  have hrel : SameLetter = fun c d => c.toLower = d.toLower := by
    funext c d
    exact propext sameLetter_iff
  rw [hrel, ← List.forall₂_eq_eq_eq, List.forall₂_map_left_iff, List.forall₂_map_right_iff]

theorem isBlank_of_isAlpha (h : c.isAlpha) : Text.isBlank c = false :=
  Text.isBlank_of_isAlphanum (by rw [Char.isAlphanum, h, Bool.true_or])

theorem isBlank_toLower (c : Char) : Text.isBlank c.toLower = Text.isBlank c := by
  cases halpha : c.isAlpha with
  | false => rw [toLower_of_not_isAlpha halpha]
  | true =>
    have hlower : c.toLower.isAlpha := by rw [Char.isAlpha_toLower_eq_isAlpha, halpha]
    rw [isBlank_of_isAlpha hlower, isBlank_of_isAlpha halpha]

theorem toLower_of_isBlank (h : Text.isBlank c) : c.toLower = c := by
  refine toLower_of_not_isAlpha ?_
  cases halpha : c.isAlpha with
  | false => rfl
  | true => exact absurd h (by simp [isBlank_of_isAlpha halpha])

/-- What becomes of a character, which begins a word if it is not blank and the flag is set. -/
def recase (atStart : Bool) (c : Char) : Char :=
  if Text.isBlank c then c else if atStart then c.toUpper else c.toLower

theorem recase_toLower (atStart : Bool) (c : Char) :
    recase atStart c.toLower = recase atStart c := by
  rw [recase, recase, isBlank_toLower]
  split
  · rename_i hblank
    rw [toLower_of_isBlank hblank]
  · rw [Char.toUpper_toLower_eq_toUpper, Char.toLower_toLower_eq_toLower]

theorem toLower_recase (atStart : Bool) (c : Char) : (recase atStart c).toLower = c.toLower := by
  rw [recase]
  split
  · rfl
  · split
    · rw [Char.toLower_toUpper_eq_toLower]
    · rw [Char.toLower_toLower_eq_toLower]

/-- Behind a blank character, and there alone, the flag is set. -/
theorem capitalizeFrom_cons (atStart : Bool) (c : Char) (s : List Char) :
    capitalizeFrom atStart (c :: s) = recase atStart c :: capitalizeFrom (Text.isBlank c) s := by
  cases hc : Text.isBlank c <;> simp [capitalizeFrom, recase, hc]

theorem capitalizeFrom_map_toLower (atStart : Bool) (s : List Char) :
    capitalizeFrom atStart (s.map Char.toLower) = capitalizeFrom atStart s := by
  induction s generalizing atStart with
  | nil => rfl
  | cons c s ih =>
    rw [List.map_cons, capitalizeFrom_cons, capitalizeFrom_cons, recase_toLower, isBlank_toLower,
      ih]

theorem map_toLower_capitalizeFrom (atStart : Bool) (s : List Char) :
    (capitalizeFrom atStart s).map Char.toLower = s.map Char.toLower := by
  induction s generalizing atStart with
  | nil => rfl
  | cons c s ih => rw [capitalizeFrom_cons, List.map_cons, List.map_cons, toLower_recase, ih]

theorem capitalizeFrom_take (atStart : Bool) (n : ℕ) (s : List Char) :
    capitalizeFrom atStart (s.take n) = (capitalizeFrom atStart s).take n := by
  induction s generalizing atStart n with
  | nil => simp [capitalizeFrom]
  | cons c s ih =>
    cases n with
    | zero => rfl
    | succ n =>
      rw [List.take_succ_cons, capitalizeFrom_cons, capitalizeFrom_cons, ih, List.take_succ_cons]

def setsCase : Filter → Bool
  | uppercase | lowercase | capitalize => true
  | titleword | abbr _ => false

theorem run_map_toLower (h : f.setsCase) (s : List Char) :
    f.run (s.map Char.toLower) = f.run s := by
  cases f with
  | uppercase => simp [run]
  | lowercase => simp [run]
  | capitalize => exact capitalizeFrom_map_toLower true s
  | titleword => cases h
  | abbr count => cases h

theorem map_toLower_run (h : f.setsCase) (s : List Char) :
    (f.run s).map Char.toLower = s.map Char.toLower := by
  cases f with
  | uppercase => simp [run]
  | lowercase => simp [run]
  | capitalize => exact map_toLower_capitalizeFrom true s
  | titleword => cases h
  | abbr count => cases h

theorem run_take (h : f.setsCase) (n : ℕ) (s : List Char) :
    f.run (s.take n) = (f.run s).take n := by
  cases f with
  | uppercase => exact List.map_take
  | lowercase => exact List.map_take
  | capitalize => exact capitalizeFrom_take true n s
  | titleword => cases h
  | abbr count => cases h

/-- The later of two filters that set the case decides. -/
theorem run_run (hf : f.setsCase) (hg : g.setsCase) (s : List Char) :
    g.run (f.run s) = g.run s := by
  rw [← run_map_toLower hg (f.run s), map_toLower_run hf, run_map_toLower hg]

end BibTemplate.Filter

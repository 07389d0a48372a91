import BibTemplate.Decimal.Natural
import Mathlib.Data.List.Induction
import Mathlib.Data.Nat.Digits.Defs

/-!
# Numerals

A numeral is a text of digits that is not empty, and its number is the sum of the digits times
powers of ten. The number is read exactly if it fits 64 bits, however many zeros stand in front.
The digits of a number are read as that number, and they are those of each of its numerals
without the zeros in front.
-/
namespace BibTemplate.Decimal

/-- The number that a row of digits means in base ten. -/
def value (s : List Char) : ℕ :=
  Nat.ofDigits 10 (s.reverse.map fun c => c.toNat - '0'.toNat)

/-- A numeral of a number: ASCII digits and at least one of them, which mean the number. -/
structure IsNumeral (s : List Char) (n : ℕ) : Prop where
  ne_nil : s ≠ []
  digits : ∀ c ∈ s, c.isDigit
  value_eq : value s = n

variable {s : List Char} {c : Char} {n : ℕ}

@[simp] theorem value_nil : value [] = 0 := rfl

theorem value_concat (s : List Char) (c : Char) :
    value (s ++ [c]) = 10 * value s + (c.toNat - '0'.toNat) := by
  rw [value, List.reverse_concat, List.map_cons, Nat.ofDigits_cons, Nat.add_comm, ← value]

theorem value_eq_ofDigitChars (s : List Char) : value s = Nat.ofDigitChars 10 s 0 := by
  induction s using List.reverseRecOn with
  | nil => rfl
  | append_singleton s c ih =>
    rw [value_concat, ih, Nat.ofDigitChars_append, Nat.ofDigitChars_cons, Nat.ofDigitChars_nil]

theorem isNumeral_toDigits (n : ℕ) : IsNumeral (Nat.toDigits 10 n) n where
  ne_nil := Nat.toDigits_ne_nil
  digits _ hc := Nat.isDigit_of_mem_toDigits (by omega) (by omega) hc
  value_eq := by rw [value_eq_ofDigitChars, Nat.ofDigitChars_ten_toDigits]

theorem IsNumeral.unique {m : ℕ} (hm : IsNumeral s m) (hn : IsNumeral s n) : m = n :=
  hm.value_eq.symm.trans hn.value_eq

theorem digit_lt_ten (h : c.isDigit) : c.toNat - '0'.toNat < 10 := by
  have hc := Char.isDigit_iff_toNat.1 h
  simp only [Char.reduceToNat] at hc ⊢
  omega

theorem toDigits_digit (h : c.isDigit) : Nat.toDigits 10 (c.toNat - '0'.toNat) = [c] := by
  have hc := Char.isDigit_iff_toNat.1 h
  rw [Nat.toDigits_of_lt_base (digit_lt_ten h), List.singleton_inj, ← Char.toNat_inj,
    Nat.toNat_digitChar_of_lt_ten (digit_lt_ten h)]
  simp only [Char.reduceToNat] at hc ⊢
  omega

theorem head?_dropWhile_zero (s : List Char) : (s.dropWhile (· == '0')).head? ≠ some '0' := by
  intro hzero
  have := List.head?_dropWhile_not (· == '0') s
  simp [hzero] at this

theorem value_dropWhile_zero (s : List Char) : value (s.dropWhile (· == '0')) = value s := by
  induction s with
  | nil => rfl
  | cons c s ih =>
    by_cases hc : c = '0'
    · subst hc
      rw [List.dropWhile_cons_of_pos rfl, ih, value_eq_ofDigitChars, value_eq_ofDigitChars,
        Nat.ofDigitChars_cons]
      rfl
    · rw [List.dropWhile_cons_of_neg (by simpa using hc)]

/-- A numeral that does not begin with a zero consists of the digits of its number. -/
theorem IsNumeral.toDigits_eq (h : IsNumeral s n) (hs : s.head? ≠ some '0') :
    Nat.toDigits 10 n = s := by
  induction s using List.reverseRecOn generalizing n with
  | nil => exact absurd rfl h.ne_nil
  | append_singleton s c ih =>
    obtain ⟨-, hdigits, rfl⟩ := h
    have hc : c.isDigit := hdigits c (by simp)
    rw [value_concat]
    by_cases hnil : s = []
    · subst hnil
      simpa using toDigits_digit hc
    · have hhead : s.head? ≠ some '0' := by
        obtain ⟨d, t, rfl⟩ := List.exists_cons_of_ne_nil hnil
        exact hs
      have hfront : Nat.toDigits 10 (value s) = s :=
        ih ⟨hnil, fun d hd => hdigits d (by simp [hd]), rfl⟩ hhead
      -- The number zero would have its one digit in front.
      have hpos : 0 < value s := by
        rw [Nat.pos_iff_ne_zero]
        intro hzero
        rw [hzero, Nat.toDigits_zero] at hfront
        simp [← hfront] at hhead
      rw [← Nat.toDigits_append_toDigits (by omega) hpos (digit_lt_ten hc), hfront,
        toDigits_digit hc]

/-- Without the zeros in front all numerals of a number are the same. -/
theorem IsNumeral.toDigits_eq_dropWhile (h : IsNumeral s n) (hn : 0 < n) :
    Nat.toDigits 10 n = s.dropWhile (· == '0') := by
  have hvalue : value (s.dropWhile (· == '0')) = n := by rw [value_dropWhile_zero, h.value_eq]
  have hne : s.dropWhile (· == '0') ≠ [] := by
    intro hnil
    rw [hnil, value_nil] at hvalue
    omega
  have hdigits : ∀ c ∈ s.dropWhile (· == '0'), c.isDigit :=
    fun c hc => h.digits c ((List.dropWhile_suffix _).subset hc)
  exact IsNumeral.toDigits_eq ⟨hne, hdigits, hvalue⟩ (head?_dropWhile_zero s)

theorem lt_wordSize_iff : n < wordSize ↔ n ≤ 2 ^ 64 - 1 := by
  unfold wordSize
  omega

/-- A number that has outgrown 64 bits does not come back with more digits. -/
theorem foldlM_push? (s : List Char) :
    s.foldlM push? 0 = if value s < wordSize then some (value s) else none := by
  induction s using List.reverseRecOn with
  | nil => rfl
  | append_singleton s c ih =>
    rw [List.foldlM_append, ih, value_concat]
    split
    · simp [push?]
    · rw [if_neg (by omega)]
      rfl

theorem readWord?_eq_some_iff : readWord? s = some n ↔ IsNumeral s n ∧ n < wordSize := by
  rw [readWord?, foldlM_push?]
  constructor
  · intro h
    split at h
    · rename_i hs
      rw [Bool.and_eq_true, Bool.not_eq_true', List.isEmpty_eq_false_iff, List.all_eq_true] at hs
      split at h
      · rename_i hlt
        obtain rfl : value s = n := Option.some.inj h
        exact ⟨⟨hs.1, hs.2, rfl⟩, hlt⟩
      · cases h
    · cases h
  · rintro ⟨⟨hne, hdigits, rfl⟩, hlt⟩
    have hs : (!s.isEmpty && s.all Char.isDigit) = true := by simpa [hne] using hdigits
    rw [if_pos hs, if_pos hlt]

theorem readWord?_toDigits (h : n < wordSize) : readWord? (Nat.toDigits 10 n) = some n :=
  readWord?_eq_some_iff.2 ⟨isNumeral_toDigits n, h⟩

end BibTemplate.Decimal

import BibTemplate.Json.Printer
import BibTemplate.Json.Scalar
import BibTemplate.Proofs.Decimal.Numerals
import Mathlib.Data.Int.Notation
import Mathlib.Data.Nat.Notation
import Mathlib.Tactic.SplitIfs

/-!
# Written scalars read again

Every escape brings the reader of a string to the character that was escaped. The digits
of an integer bring the reader of a number to that integer, at both ends of the 64 bits as
well; there the number is complete, but only the next character shows it.
-/
namespace BibTemplate.Json

/-- Reading the characters brings a reader from the one state to the other, and what it reads
does not end on the way. -/
inductive Reads {σ α : Type} (step : σ → Char → Option (Progress σ α)) :
    σ → List Char → σ → Prop
  | nil {q : σ} : Reads step q [] q
  | cons {q r t : σ} {c : Char} {s : List Char} :
      step q c = some (.more r) → Reads step r s t → Reads step q (c :: s) t

theorem Reads.append {σ α : Type} {step : σ → Char → Option (Progress σ α)} {q r t : σ}
    {s u : List Char} (h : Reads step q s r) (h' : Reads step r u t) : Reads step q (s ++ u) t := by
  induction h with
  | nil => exact h'
  | cons hc _ ih => exact .cons hc (ih h')

theorem hexValue?_hexDigit : ∀ n < 16, hexValue? (hexDigit n) = some n := by decide

theorem utf8Size_hexDigit : ∀ n < 16, (hexDigit n).utf8Size = 1 := by decide

namespace Quoted

/-- After a backslash a letter stands for the character that it escapes. -/
theorem reads_letter {a c : Char} (hu : a ≠ 'u') (h : letter? a = some c) (text : List Char) :
    Reads (step .keeping) ⟨.plain, text⟩ ['\\', a] ⟨.plain, c :: text⟩ := by
  refine .cons (r := ⟨.escape, text⟩) rfl (.cons ?_ .nil)
  rw [step]
  simp only [if_neg hu, h]
  rfl

/-- A character below U+0020 is written by four digits, of which two are zeros. -/
theorem reads_code {c : Char} (h : c.toNat < 0x20) (text : List Char) :
    Reads (step .keeping) ⟨.plain, text⟩
      ['\\', 'u', '0', '0', hexDigit (c.toNat / 16), hexDigit (c.toNat % 16)]
      ⟨.plain, c :: text⟩ := by
  have hhigh : c.toNat / 16 < 16 := by omega
  have hlow : c.toNat % 16 < 16 := by omega
  have hsum : 16 * (c.toNat / 16) + c.toNat % 16 = c.toNat := by omega
  have hlead : isLead c.toNat = false := by simp [isLead]; omega
  have htrail : isTrail c.toNat = false := by simp [isTrail]; omega
  refine .cons (r := ⟨.escape, text⟩) rfl (.cons (r := ⟨.code none 0 (some 0), text⟩) rfl
    (.cons (r := ⟨.code none 1 (some 0), text⟩) rfl
      (.cons (r := ⟨.code none 2 (some 0), text⟩) rfl
        (.cons (r := ⟨.code none 3 (some (c.toNat / 16)), text⟩) ?_ (.cons ?_ .nil)))))
  · simp [step, hexValue?_hexDigit _ hhigh, utf8Size_hexDigit _ hhigh]
  · simp [step, hexValue?_hexDigit _ hlow, utf8Size_hexDigit _ hlow, hsum, code, hlead, htrail,
      push]

theorem reads_escape (c : Char) (text : List Char) :
    Reads (step .keeping) ⟨.plain, text⟩ (escape c) ⟨.plain, c :: text⟩ := by
  unfold escape
  split_ifs with hquote hbackslash hb ht hn hf hr hcode
  iterate 7
    · subst_vars
      exact reads_letter (by decide) rfl text
  · exact reads_code hcode text
  · refine .cons ?_ .nil
    simp [step, hquote, hbackslash, hcode, push]

theorem reads_flatMap_escape (s text : List Char) :
    Reads (step .keeping) ⟨.plain, text⟩ (s.flatMap escape) ⟨.plain, s.reverse ++ text⟩ := by
  induction s generalizing text with
  | nil => exact .nil
  | cons c s ih =>
    rw [List.flatMap_cons, List.reverse_cons, List.append_assoc]
    exact (reads_escape c text).append (ih (c :: text))

theorem reads_text (s : String) :
    Reads (step .keeping) .start (s.toList.flatMap escape) ⟨.plain, s.toList.reverse⟩ := by
  have h := reads_flatMap_escape s.toList []
  rwa [List.append_nil] at h

/-- The closing quote ends the string with the text that was written. -/
theorem step_quote (s : String) :
    step .keeping ⟨.plain, s.toList.reverse⟩ '"' = some (.done s) := by
  simp [step]

end Quoted

theorem head?_toDigits_ne_zero {n : ℕ} (h : 0 < n) : (Nat.toDigits 10 n).head? ≠ some '0' := by
  rw [(Decimal.isNumeral_toDigits n).toDigits_eq_dropWhile h]
  exact Decimal.head?_dropWhile_zero _

namespace Numeral

/-- The reader of a number after the digits of an integer. -/
def ofInteger (n : Int64) : Numeral where
  stage := if n = 0 then .zero else .whole
  negative := n < 0
  whole := (Nat.toDigits 10 n.toInt.natAbs).reverse
  fraction := []
  negativeExponent := false
  exponent := []

theorem integer?_ofInteger (n : Int64) : (ofInteger n).integer? = some n := by
  have hle : -9223372036854775808 ≤ n.toInt := Int64.le_toInt n
  have hlt : n.toInt < 9223372036854775808 := Int64.toInt_lt n
  have hneg : n < 0 ↔ n.toInt < 0 := Int64.lt_iff_toInt_lt
  rw [integer?, ofInteger]
  simp only [List.isEmpty_nil, Bool.and_self, if_true, List.reverse_reverse,
    Nat.ofDigitChars_ten_toDigits, decide_eq_true_eq, negativeSize]
  split
  · rename_i h
    rw [hneg] at h
    have hvalue : -(n.toInt.natAbs : ℤ) = n.toInt := by omega
    rw [if_pos (by omega), hvalue, Int64.ofInt_toInt]
  · rename_i h
    rw [hneg] at h
    have hvalue : (n.toInt.natAbs : ℤ) = n.toInt := by omega
    rw [if_pos (by omega), ← Int64.ofInt_eq_ofNat, hvalue, Int64.ofInt_toInt]

theorem value?_ofInteger (n : Int64) : (ofInteger n).value? = some (.integer n) := by
  rw [value?, integer?_ofInteger]

/-- No more digits stand behind the digits of an integer. -/
theorem step_ofInteger (n : Int64) {c : Char} (hd : c.isDigit = false) (hp : c ≠ '.')
    (he : c ≠ 'e') (hE : c ≠ 'E') : (ofInteger n).step c = some (.past (ofInteger n)) := by
  by_cases h : n = 0 <;> simp [step, ofInteger, afterWhole, h, hd, hp, he, hE]

theorem complete_ofInteger (n : Int64) : (ofInteger n).complete = true := by
  by_cases h : n = 0 <;> simp [complete, ofInteger, h]

theorem ne_of_start? {c d : Char} {m : Numeral} (h : start? c = some m) (hd : start? d = none) :
    c ≠ d := by
  rintro rfl
  rw [hd] at h
  cases h

theorem isSpace_of_start? {c : Char} {m : Numeral} (h : start? c = some m) :
    isSpace c = false := by
  simp [isSpace, ne_of_start? h (d := ' ') rfl, ne_of_start? h (d := '\t') rfl,
    ne_of_start? h (d := '\n') rfl, ne_of_start? h (d := '\r') rfl]

/-- A character that begins a number begins no other scalar. -/
theorem scalar_of_start? {c : Char} {m : Numeral} (h : start? c = some m) :
    Scalar.start? c = some (.numeral m) := by
  unfold Scalar.start?
  split
  · cases h
  · cases h
  · cases h
  · cases h
  · rw [h, Option.map_some]

theorem reads_digits {n : Numeral} (hn : n.stage = .whole) {ds : List Char}
    (hds : ∀ d ∈ ds, d.isDigit) : Reads step n ds { n with whole := ds.reverse ++ n.whole } := by
  induction ds generalizing n with
  | nil => exact .nil
  | cons d ds ih =>
    rw [List.forall_mem_cons] at hds
    have hstep : n.step d = some (.more { n with whole := d :: n.whole }) := by
      rw [step, hn]
      exact if_pos hds.1
    refine .cons hstep ?_
    rw [List.reverse_cons, List.append_assoc]
    exact ih hn hds.2

/-- An integer is read from its first character on. -/
theorem exists_start?_writeInteger (n : Int64) :
    ∃ c s m, writeInteger n = c :: s ∧ start? c = some m ∧ Reads step m s (ofInteger n) := by
  have hdigits : ∀ d ∈ Nat.toDigits 10 n.toInt.natAbs, d.isDigit :=
    fun d hd => Nat.isDigit_of_mem_toDigits (by omega) (by omega) hd
  by_cases hzero : n = 0
  · subst hzero
    exact ⟨'0', [], ofInteger 0, rfl, rfl, .nil⟩
  · have hpos : 0 < n.toInt.natAbs := by
      rw [Int.natAbs_pos]
      exact fun h => hzero (Int64.toInt_inj.1 h)
    obtain ⟨d, ds, hds⟩ := List.exists_cons_of_ne_nil
      (Nat.toDigits_ne_nil (n := n.toInt.natAbs) (b := 10))
    have hne : d ≠ '0' := by
      have hhead := head?_toDigits_ne_zero hpos
      rw [hds] at hhead
      simpa using hhead
    rw [hds, List.forall_mem_cons] at hdigits
    have hend : ofInteger n = ⟨.whole, n < 0, ds.reverse ++ [d], [], false, []⟩ := by
      rw [ofInteger, hds, if_neg hzero, List.reverse_cons]
    have hrest := reads_digits (n := ⟨.whole, n < 0, [d], [], false, []⟩) rfl hdigits.2
    rw [writeInteger, hds, hend]
    by_cases hneg : n < 0
    · refine ⟨'-', d :: ds, ⟨.sign, true, [], [], false, []⟩, by simp [Decimal.signed, hneg], rfl,
        .cons ?_ hrest⟩
      simp [step, hne, hdigits.1, hneg]
    · refine ⟨d, ds, ⟨.whole, n < 0, [d], [], false, []⟩, by simp [Decimal.signed, hneg], ?_, hrest⟩
      have hminus : d ≠ '-' := by
        rintro rfl
        exact absurd hdigits.1 (by decide)
      simp [start?, hne, hminus, hdigits.1, hneg]

end Numeral

end BibTemplate.Json

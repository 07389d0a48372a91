import BibTemplate.Path
import BibTemplate.Proofs.Decimal.Numerals

/-!
# The elements of a list by their index

One step leads from a list to an element exactly along the numerals of the index of the element,
with any zeros in front. The bound of 64 bits on the numbers that are read does not show: a list
is never so long, and a number that is too great leads nowhere, also when its last 64 bits are
an index of the list.
-/
namespace BibTemplate.Value

/-- The segment leads to the element at the place in every list of the length, whatever the
elements are. -/
def Reaches (segment : String) (length place : ℕ) : Prop :=
  place < length ∧
    ∀ items : List Value, items.length = length → (list items).step? segment = items[place]?

variable {items : List Value} {segment : String} {v : Value} {length place n : ℕ}

theorem step?_list_eq_some_iff (h : items.length < 2 ^ 64) :
    (list items).step? segment = some v ↔
      ∃ n, Decimal.IsNumeral segment.toList n ∧ items[n]? = some v := by
  rw [step?_list, Option.bind_eq_some_iff]
  constructor
  · rintro ⟨n, hread, hitem⟩
    exact ⟨n, (Decimal.readWord?_eq_some_iff.1 hread).1, hitem⟩
  · rintro ⟨n, hnumeral, hitem⟩
    have hn : n < items.length := (List.getElem?_eq_some_iff.1 hitem).1
    have hword : n < Decimal.wordSize := Decimal.lt_wordSize_iff.2 (by omega)
    exact ⟨n, Decimal.readWord?_eq_some_iff.2 ⟨hnumeral, hword⟩, hitem⟩

theorem step?_list_of_isNumeral (h : items.length < 2 ^ 64)
    (hn : Decimal.IsNumeral segment.toList n) : (list items).step? segment = items[n]? := by
  ext v
  rw [step?_list_eq_some_iff h]
  constructor
  · rintro ⟨m, hm, hitem⟩
    rwa [← hm.unique hn]
  · intro hitem
    exact ⟨n, hn, hitem⟩

theorem reaches_iff (h : length < 2 ^ 64) :
    Reaches segment length place ↔ place < length ∧ Decimal.IsNumeral segment.toList place := by
  constructor
  · rintro ⟨hplace, hall⟩
    -- A list whose elements tell the place from all others.
    have hstep := hall ((List.range length).map fun i => bool (i == place)) (by simp)
    rw [List.getElem?_map, List.getElem?_range hplace, Option.map_some, beq_self_eq_true,
      step?_list_eq_some_iff (by simpa using h)] at hstep
    obtain ⟨n, hn, hitem⟩ := hstep
    obtain ⟨-, rfl⟩ : n < length ∧ n = place := by
      simpa [List.getElem?_eq_some_iff] using hitem
    exact ⟨hplace, hn⟩
  · rintro ⟨hplace, hn⟩
    refine ⟨hplace, fun items hlength => ?_⟩
    exact step?_list_of_isNumeral (by omega) hn

/-- A segment leads from a list to an element exactly if it is a numeral of the index of that
element. A number that does not fit 64 bits leads nowhere, and texts of digits that lead to the
same place have the same number. -/
theorem step?_list_exact (items : List Value) (h : items.length < 2 ^ 64) (segment : String) :
    (∀ v, (list items).step? segment = some v ↔
      ∃ n, Decimal.IsNumeral segment.toList n ∧ ∃ hn : n < items.length, items[n] = v) ∧
    (∀ n, Decimal.IsNumeral segment.toList n → 2 ^ 64 ≤ n →
      (list items).step? segment = none) ∧
    ∀ other m n place, Decimal.IsNumeral segment.toList m → Decimal.IsNumeral other.toList n →
      Reaches segment items.length place → Reaches other items.length place → m = n := by
  refine ⟨fun v => ?_, fun n hn hbeyond => ?_, fun other m n place hm hn hplace hother => ?_⟩
  · rw [step?_list_eq_some_iff h]
    simp only [List.getElem?_eq_some_iff]
  · rw [step?_list_of_isNumeral h hn, List.getElem?_eq_none_iff]
    omega
  · have hfirst : m = place := hm.unique ((reaches_iff h).1 hplace).2
    have hsecond : n = place := hn.unique ((reaches_iff h).1 hother).2
    rw [hfirst, hsecond]

/-- Zeros in front of an index, and a number beyond 64 bits whose last 64 bits are that index. -/
theorem step?_list_exact_beyond :
    let items : List Value := [.null, .string "b"]
    items.length < 2 ^ 64 ∧ Decimal.IsNumeral "001".toList 1 ∧
      (list items).step? "001" = some (.string "b") ∧
      Decimal.IsNumeral "18446744073709551617".toList (2 ^ 64 + 1) ∧
      (list items).step? "18446744073709551617" = none ∧
      Decimal.IsNumeral "00".toList 0 ∧ Reaches "001" items.length 1 ∧
      ¬ Reaches "00" items.length 1 := by
  intro items
  have hlength : items.length < 2 ^ 64 := by decide
  have hone : Decimal.IsNumeral "001".toList 1 :=
    ⟨by decide, List.all_eq_true.1 (by decide), by decide⟩
  have hbeyond : Decimal.IsNumeral "18446744073709551617".toList (2 ^ 64 + 1) :=
    ⟨by decide, List.all_eq_true.1 (by decide), by decide⟩
  have hzero : Decimal.IsNumeral "00".toList 0 :=
    ⟨by decide, List.all_eq_true.1 (by decide), by decide⟩
  have hreaches : Reaches "001" items.length 1 := (reaches_iff hlength).2 ⟨by decide, hone⟩
  obtain ⟨hsteps, -, hsame⟩ := step?_list_exact items hlength "001"
  obtain ⟨-, hnowhere, -⟩ := step?_list_exact items hlength "18446744073709551617"
  have hstep : (list items).step? "001" = some (.string "b") :=
    (hsteps _).2 ⟨1, hone, by decide, rfl⟩
  refine ⟨hlength, hone, hstep, hbeyond, hnowhere _ hbeyond (by decide), hzero, hreaches, ?_⟩
  intro hother
  have hequal : 1 = 0 := hsame "00" 1 0 1 hone hzero hreaches hother
  exact absurd hequal (by decide)

end BibTemplate.Value

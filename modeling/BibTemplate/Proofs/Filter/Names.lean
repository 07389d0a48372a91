import BibTemplate.Filter.Basic
import BibTemplate.Proofs.Decimal.Numerals
import Mathlib.Data.List.DropRight

/-!
# The names of filters

A filter is found by one fixed name or by `abbr` and a numeral of its count, and by no other
text. Every filter that a name can give is found again by the name it is written by, which is
that name without the zeros in front of its number. It consists of ASCII letters and digits,
so it may stand between bars and blanks.
-/
namespace BibTemplate.Filter

/-- Some name gives the filter: a count is not zero and fits 64 bits. -/
def HasName : Filter → Prop
  | abbr count => 1 ≤ count ∧ count < Decimal.wordSize
  | _ => True

/-- The text names the filter: it is the fixed name of the filter, or `abbr` and behind it a
numeral of the count, which is not zero and fits 64 bits. -/
inductive IsName : String → Filter → Prop
  | uppercase : IsName "uppercase" uppercase
  | lowercase : IsName "lowercase" lowercase
  | capitalize : IsName "capitalize" capitalize
  | titleword : IsName "titleword" titleword
  | abbr {digits : String} {count : ℕ} :
      Decimal.IsNumeral digits.toList count → 1 ≤ count → count ≤ 2 ^ 64 - 1 →
      IsName ("abbr" ++ digits) (abbr count)

variable {name : String} {f : Filter}

theorem abbr?_eq_some_iff {s : List Char} {f : Filter} :
    abbr? s = some f ↔ ∃ digits count, s = "abbr".toList ++ digits ∧
      Decimal.readWord? digits = some count ∧ 1 ≤ count ∧ f = abbr count := by
  unfold abbr?
  split
  · rename_i digits
    simp only [Option.map_eq_some_iff, Option.filter_eq_some_iff, decide_eq_true_eq]
    constructor
    · intro ⟨count, ⟨hr, hc⟩, hf⟩
      exact ⟨digits, count, rfl, hr, hc, hf.symm⟩
    · intro ⟨ds, count, hs, hr, hc, hf⟩
      obtain rfl : digits = ds := by simpa using hs
      exact ⟨count, ⟨hr, hc⟩, hf.symm⟩
  · rename_i h
    constructor
    · intro he
      cases he
    · intro ⟨digits, count, hs, _⟩
      exact absurd hs (h digits)

theorem isName_of_lookup_named (h : named.lookup name = some f) : IsName name f := by
  obtain ⟨l, r, hsplit, -⟩ := List.lookup_eq_some_iff.1 h
  have hmem : (name, f) ∈ named := by
    rw [hsplit]
    simp
  simp only [named, List.mem_cons, Prod.mk.injEq, List.not_mem_nil, or_false] at hmem
  rcases hmem with ⟨rfl, rfl⟩ | ⟨rfl, rfl⟩ | ⟨rfl, rfl⟩ | ⟨rfl, rfl⟩ <;> constructor

theorem lookup_named_eq_none (h : name.toList.head? = some 'a') : named.lookup name = none := by
  have hnamed : ∀ p ∈ named, p.1.toList.head? ≠ some 'a' := by decide
  rw [List.lookup_eq_none_iff]
  intro p hp
  rw [bne_iff_ne]
  rintro rfl
  exact hnamed p hp h

theorem ofName?_eq_some_iff : ofName? name = some f ↔ IsName name f := by
  constructor
  · intro h
    rw [ofName?, Option.or_eq_some_iff] at h
    rcases h with h | ⟨-, h⟩
    · exact isName_of_lookup_named h
    · obtain ⟨digits, count, hname, hr, hc, rfl⟩ := abbr?_eq_some_iff.1 h
      obtain ⟨hnumeral, hlt⟩ := Decimal.readWord?_eq_some_iff.1 hr
      have happend : name = "abbr" ++ .ofList digits := by
        rw [← String.toList_inj, hname]
        simp
      rw [happend]
      exact .abbr (by rwa [String.toList_ofList]) hc (Decimal.lt_wordSize_iff.1 hlt)
  · intro h
    cases h with
    | @abbr digits count hnumeral hc hle =>
      rw [ofName?, lookup_named_eq_none (by simp), Option.none_or, abbr?_eq_some_iff]
      refine ⟨digits.toList, count, String.toList_append, ?_, hc, rfl⟩
      exact Decimal.readWord?_eq_some_iff.2 ⟨hnumeral, Decimal.lt_wordSize_iff.2 hle⟩
    | _ => rfl

theorem hasName_of_ofName? (h : ofName? name = some f) : f.HasName := by
  cases ofName?_eq_some_iff.1 h with
  | abbr hnumeral hc hle => exact ⟨hc, Decimal.lt_wordSize_iff.2 hle⟩
  | _ => trivial

theorem toList_name_abbr (count : ℕ) :
    (abbr count).name.toList = "abbr".toList ++ Nat.toDigits 10 count :=
  String.toList_ofList

/-- A filter that has a name is found by it. -/
theorem ofName?_name (h : f.HasName) : ofName? f.name = some f := by
  rw [ofName?_eq_some_iff]
  cases f with
  | abbr count =>
    have hname : (abbr count).name = "abbr" ++ .ofList (Nat.toDigits 10 count) := by
      rw [← String.toList_inj, toList_name_abbr]
      simp
    rw [hname]
    refine .abbr ?_ h.1 (Decimal.lt_wordSize_iff.1 h.2)
    rw [String.toList_ofList]
    exact Decimal.isNumeral_toDigits count
  | _ => constructor

theorem isAlphanum_of_mem_name {f : Filter} {c : Char} (h : c ∈ f.name.toList) :
    c.isAlphanum := by
  have hfixed : ∀ g ∈ [uppercase, lowercase, capitalize, titleword],
      g.name.toList.all Char.isAlphanum := by decide
  cases f with
  | abbr count =>
    rw [toList_name_abbr, List.mem_append] at h
    rcases h with h | h
    · have habbr : "abbr".toList.all Char.isAlphanum := by decide
      exact List.all_eq_true.1 habbr c h
    · have hd := Nat.isDigit_of_mem_toDigits (by omega) (by omega) h
      simp [Char.isAlphanum, hd]
  | _ => exact List.all_eq_true.1 (hfixed _ (by decide)) c h

/-- A text without the zeros in front of the number that it ends with. -/
def withoutZeros (name : String) : String :=
  let stem := name.toList.rdropWhile Char.isDigit
  let number := name.toList.rtakeWhile Char.isDigit
  .ofList (stem ++ number.dropWhile (· == '0'))

theorem toList_withoutZeros {stem number : List Char} (hname : name.toList = stem ++ number)
    (hstem : ∀ c ∈ stem, c.isDigit = false) (hnumber : ∀ c ∈ number, c.isDigit) :
    (withoutZeros name).toList = stem ++ number.dropWhile (· == '0') := by
  have hreverse : ∀ c ∈ number.reverse, c.isDigit := by simpa using hnumber
  have hlast : ∀ hne : stem ≠ [], ¬ (stem.getLast hne).isDigit := by
    intro hne
    simp [hstem _ (List.getLast_mem hne)]
  have hdrop : (stem ++ number).rdropWhile Char.isDigit = stem := by
    rw [List.rdropWhile, List.reverse_append, List.dropWhile_append_of_pos hreverse]
    exact List.rdropWhile_eq_self_iff.2 hlast
  have htake : (stem ++ number).rtakeWhile Char.isDigit = number := by
    rw [List.rtakeWhile, List.reverse_append, List.takeWhile_append_of_pos hreverse,
      List.reverse_append, List.reverse_reverse, ← List.rtakeWhile,
      List.rtakeWhile_eq_nil_iff.2 hlast, List.nil_append]
  rw [withoutZeros, String.toList_ofList, hname, hdrop, htake]

theorem IsName.name_eq (h : IsName name f) : f.name = withoutZeros name := by
  cases h with
  | @abbr digits count hnumeral hc hle =>
    have hstem : ∀ c ∈ "abbr".toList, c.isDigit = false := by simp
    rw [← String.toList_inj, toList_name_abbr, hnumeral.toDigits_eq_dropWhile hc,
      toList_withoutZeros String.toList_append hstem hnumeral.digits]
  | _ => decide

/-- A text gives a filter exactly if it names it. A filter is given by its own name exactly if
any name gives it, and its own name is each of its names without the zeros in front of the
number. -/
theorem ofName?_corresponds :
    (∀ name f, ofName? name = some f ↔ IsName name f) ∧
    (∀ f, ofName? f.name = some f ↔ f.HasName) ∧
    ∀ name f, ofName? name = some f → f.name = withoutZeros name := by
  refine ⟨fun name f => ofName?_eq_some_iff, fun f => ?_, fun name f h => ?_⟩
  · exact ⟨hasName_of_ofName?, ofName?_name⟩
  · exact (ofName?_eq_some_iff.1 h).name_eq

/-- The greatest count with zeros in front of it, and the first that is too great. -/
theorem ofName?_corresponds_greatest :
    ofName? "abbr0018446744073709551615" = some (abbr 18446744073709551615) ∧
      (abbr 18446744073709551615).name = withoutZeros "abbr0018446744073709551615" ∧
      ofName? (abbr 18446744073709551615).name = some (abbr 18446744073709551615) ∧
      ofName? (abbr 18446744073709551616).name = none := by
  obtain ⟨-, hnames, hzeros⟩ := ofName?_corresponds
  have hgreatest : ofName? "abbr0018446744073709551615" = some (abbr 18446744073709551615) := by
    decide
  refine ⟨hgreatest, hzeros _ _ hgreatest, (hnames _).2 ⟨by decide, by decide⟩, ?_⟩
  decide

end BibTemplate.Filter

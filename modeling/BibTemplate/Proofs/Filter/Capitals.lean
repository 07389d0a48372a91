import BibTemplate.Proofs.Filter.Letters

/-!
# Capitals

Capitalizing goes through a text with a flag that says whether a word may begin here. In front of
every character but the first, the flag says whether the character before is blank. So what
becomes of a character depends on this neighbour alone, and a text may be capitalized in parts
that blanks keep apart.
-/
namespace BibTemplate.Filter

/-- The flag behind a text that is begun with the flag `atStart`. -/
def startsBehind (atStart : Bool) (s : List Char) : Bool :=
  s.getLast?.elim atStart Text.isBlank

variable {atStart : Bool} {s w : List Char}

theorem length_capitalizeFrom (atStart : Bool) (s : List Char) :
    (capitalizeFrom atStart s).length = s.length := by
  simpa using congrArg List.length (map_toLower_capitalizeFrom atStart s)

theorem startsBehind_cons (atStart : Bool) (c : Char) (s : List Char) :
    startsBehind atStart (c :: s) = startsBehind (Text.isBlank c) s := by
  rw [startsBehind, startsBehind, List.getLast?_cons]
  cases s.getLast? <;> rfl

theorem startsBehind_append (atStart : Bool) (s t : List Char) :
    startsBehind atStart (s ++ t) = startsBehind (startsBehind atStart s) t := by
  induction s generalizing atStart with
  | nil => rfl
  | cons c s ih => rw [List.cons_append, startsBehind_cons, startsBehind_cons, ih]

theorem capitalizeFrom_append (atStart : Bool) (s t : List Char) :
    capitalizeFrom atStart (s ++ t) =
      capitalizeFrom atStart s ++ capitalizeFrom (startsBehind atStart s) t := by
  induction s generalizing atStart with
  | nil => rfl
  | cons c s ih =>
    rw [List.cons_append, capitalizeFrom_cons, capitalizeFrom_cons, ih, startsBehind_cons,
      List.cons_append]

theorem getElem?_capitalizeFrom (atStart : Bool) (s : List Char) (i : ℕ) :
    (capitalizeFrom atStart s)[i]? = s[i]?.map (recase (startsBehind atStart (s.take i))) := by
  induction s generalizing atStart i with
  | nil => rfl
  | cons c s ih =>
    rw [capitalizeFrom_cons]
    cases i with
    | zero => rfl
    | succ i =>
      rw [List.getElem?_cons_succ, List.getElem?_cons_succ, List.take_succ_cons,
        startsBehind_cons, ih]

theorem startsBehind_take {i : ℕ} (h : i < s.length) :
    startsBehind true (s.take i) ↔ i = 0 ∨ Text.isBlank s[i - 1] := by
  cases i with
  | zero => simp [startsBehind]
  | succ i =>
    rw [List.take_succ_eq_append_getElem (by omega), startsBehind, List.getLast?_concat]
    simp

theorem capitalizeFrom_of_blank (h : ∀ c ∈ w, Text.isBlank c) (atStart : Bool) :
    capitalizeFrom atStart w = w := by
  induction w generalizing atStart with
  | nil => rfl
  | cons c w ih =>
    have hc : recase atStart c = c := if_pos (h c List.mem_cons_self)
    rw [capitalizeFrom_cons, hc, ih fun d hd => h d (List.mem_cons_of_mem c hd)]

theorem startsBehind_of_blank (hne : w ≠ []) (h : ∀ c ∈ w, Text.isBlank c) (atStart : Bool) :
    startsBehind atStart w = true := by
  rw [startsBehind, List.getLast?_eq_some_getLast hne]
  exact h _ (List.getLast_mem hne)

/-- Behind a blank a text is capitalized as it is at the beginning. -/
theorem capitalizeFrom_parted (hne : w ≠ []) (h : ∀ c ∈ w, Text.isBlank c) (s t : List Char) :
    capitalizeFrom atStart (s ++ w ++ t) =
      capitalizeFrom atStart s ++ w ++ capitalizeFrom true t := by
  have hflag : startsBehind atStart (s ++ w) = true := by
    rw [startsBehind_append, startsBehind_of_blank hne h]
  rw [capitalizeFrom_append, capitalizeFrom_append, capitalizeFrom_of_blank h, hflag]

/-- Capitalizing keeps the length of a text and its blank characters. It gives upper case to
each other character at the beginning and behind a blank, and lower case to all others. So doing
it twice changes nothing more, and what stands between blanks is capitalized for itself. -/
theorem apply_capitalize (s : String) :
    (capitalize.apply s).length = s.length ∧
    (∀ i (h : i < s.toList.length), (capitalize.apply s).toList[i]? =
      some (if Text.isBlank s.toList[i] then s.toList[i]
        else if i = 0 ∨ Text.isBlank s.toList[i - 1] then s.toList[i].toUpper
        else s.toList[i].toLower)) ∧
    capitalize.apply (capitalize.apply s) = capitalize.apply s ∧
    ∀ w t : String, w ≠ "" → (∀ c ∈ w.toList, Text.isBlank c) →
      capitalize.apply (s ++ w ++ t) = capitalize.apply s ++ w ++ capitalize.apply t := by
  simp only [← String.length_toList, ← String.toList_inj, toList_apply, String.toList_append]
  refine ⟨?_, ?_, run_run rfl rfl s.toList, ?_⟩
  · exact length_capitalizeFrom true s.toList
  · intro i h
    rw [run, getElem?_capitalizeFrom, List.getElem?_eq_getElem h, Option.map_some, recase]
    simp only [startsBehind_take h]
  · intro w t hne h
    exact capitalizeFrom_parted (by simpa using hne) h s.toList t.toList

/-- The text is parted by blanks that are no spaces. An accented letter and a bracket begin its
parts, so that no letter in it changes to upper case. -/
theorem apply_capitalize_parted :
    let blanks := "\u2003\t"
    blanks ≠ "" ∧ (∀ c ∈ blanks.toList, Text.isBlank c) ∧
      (capitalize.apply "éTUDES").toList[1]? = some 't' ∧
      capitalize.apply ("éTUDES" ++ blanks ++ "(on RUST) 2nd") =
        "études" ++ blanks ++ "(on Rust) 2nd" := by
  intro blanks
  obtain ⟨-, hplace, -, hparted⟩ := apply_capitalize "éTUDES"
  have hne : blanks ≠ "" := by decide
  have hblank : ∀ c ∈ blanks.toList, Text.isBlank c := List.all_eq_true.1 (by decide)
  have hfront : capitalize.apply "éTUDES" = "études" := by decide
  have hback : capitalize.apply "(on RUST) 2nd" = "(on Rust) 2nd" := by decide
  refine ⟨hne, hblank, hplace 1 (by decide), ?_⟩
  rw [hparted blanks "(on RUST) 2nd" hne hblank, hfront, hback]

end BibTemplate.Filter

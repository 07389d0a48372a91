import BibTemplate.Proofs.Filter.Letters

/-!
# Chains of filters

What a chain of filters shows is a piece of the text that it is given, up to the case of the
letters. Without the filter that picks a word, a chain says no more than its last filter that
sets the case and its shortest abbreviation.
-/
namespace BibTemplate.Filter

variable {f : Filter} {fs : List Filter} {s w : List Char}

/-- What a chain makes of a text. -/
def runAll (fs : List Filter) (s : List Char) : List Char :=
  fs.foldl (fun s f => f.run s) s

theorem toList_applyAll (fs : List Filter) (s : String) :
    (applyAll fs s).toList = runAll fs s.toList := by
  induction fs generalizing s with
  | nil => rfl
  | cons f fs ih => rw [applyAll_cons, ih, toList_apply, runAll, runAll, List.foldl_cons]

theorem runAll_append (fs gs : List Filter) (s : List Char) :
    runAll (fs ++ gs) s = runAll gs (runAll fs s) :=
  List.foldl_append

theorem infix_of_mem_bareWords (h : w ∈ bareWords s) : w <:+: s := by
  obtain ⟨word, hword, rfl⟩ := List.mem_map.1 (List.mem_of_mem_filter h)
  exact (Text.strip_infix _ word).trans (Text.infix_of_mem_words hword)

theorem titleWord_cases (s : List Char) : titleWord s = [] ∨ titleWord s ∈ bareWords s := by
  rw [titleWord]
  cases hfind : (bareWords s).find? isSignificant with
  | some word => exact .inr (List.mem_of_find?_eq_some hfind)
  | none =>
    rw [Option.none_or]
    cases hhead : (bareWords s).head? with
    | some word => exact .inr (List.mem_of_head? hhead)
    | none => exact .inl rfl

theorem isInfix_titleWord (s : List Char) : titleWord s <:+: s := by
  rcases titleWord_cases s with h | h
  · rw [h]
    exact List.nil_infix
  · exact infix_of_mem_bareWords h

/-- A filter keeps a piece of the text, up to the case of the letters. -/
theorem isInfix_map_toLower_run (f : Filter) (s : List Char) :
    (f.run s).map Char.toLower <:+: s.map Char.toLower := by
  cases f with
  | titleword => exact (isInfix_titleWord s).map Char.toLower
  | abbr count => exact (List.take_prefix count s).isInfix.map Char.toLower
  | _ => rw [map_toLower_run rfl]

theorem isInfix_map_toLower_runAll (fs : List Filter) (s : List Char) :
    (runAll fs s).map Char.toLower <:+: s.map Char.toLower := by
  induction fs generalizing s with
  | nil => exact List.infix_rfl
  | cons f fs ih => exact (ih (f.run s)).trans (isInfix_map_toLower_run f s)

theorem length_runAll_le (fs : List Filter) (s : List Char) :
    (runAll fs s).length ≤ s.length := by
  simpa using (isInfix_map_toLower_runAll fs s).length_le

theorem length_runAll_le_of_mem {count : ℕ} (h : abbr count ∈ fs) (s : List Char) :
    (runAll fs s).length ≤ count := by
  induction fs generalizing s with
  | nil => cases h
  | cons f fs ih =>
    rcases List.mem_cons.1 h with rfl | h
    · exact (length_runAll_le fs (s.take count)).trans (List.length_take_le count s)
    · exact ih h (f.run s)

/-- What a chain shows is a piece of the text up to the case of its ASCII letters, no longer than
the text and than every abbreviation in the chain. -/
theorem applyAll_piece (fs : List Filter) (s : String) :
    (∃ piece, piece <:+: s.toList ∧ List.Forall₂ SameLetter piece (applyAll fs s).toList) ∧
      (applyAll fs s).length ≤ s.length ∧
      ∀ count, abbr count ∈ fs → (applyAll fs s).length ≤ count := by
  simp only [← String.length_toList, toList_applyAll]
  refine ⟨?_, length_runAll_le fs s.toList, fun count h => length_runAll_le_of_mem h s.toList⟩
  obtain ⟨piece, hpiece, hmap⟩ := List.infix_map_iff.1 (isInfix_map_toLower_runAll fs s.toList)
  exact ⟨piece, hpiece, forall₂_sameLetter_iff.2 hmap.symm⟩

/-- A chain that abbreviates twice, on both sides of a word that is picked. -/
theorem applyAll_piece_cut_twice :
    let fs := [abbr 9, uppercase, titleword, capitalize, abbr 4]
    abbr 4 ∈ fs ∧ (applyAll fs "on Étudés: a study").length ≤ 4 := by
  intro fs
  have hmem : abbr 4 ∈ fs := by decide
  exact ⟨hmem, (applyAll_piece fs "on Étudés: a study").2.2 4 hmem⟩

def count? : Filter → Option ℕ
  | abbr count => some count
  | _ => none

/-- The last filter of a chain that sets the case. -/
def lastCase? (fs : List Filter) : Option Filter :=
  (fs.filter setsCase).getLast?

/-- The shortest abbreviation of a chain. -/
def leastCount? (fs : List Filter) : Option ℕ :=
  (fs.filterMap count?).min?

/-- What is left of a chain: its last filter that sets the case, and then a cut to its shortest
abbreviation, as far as the chain has them. -/
def normalForm (fs : List Filter) (s : List Char) : List Char :=
  let cased := (lastCase? fs).elim s (·.run s)
  (leastCount? fs).elim cased cased.take

theorem setsCase_of_lastCase? (h : lastCase? fs = some f) : f.setsCase :=
  (List.mem_filter.1 (List.mem_of_getLast? h)).2

theorem lastCase?_concat (fs : List Filter) (f : Filter) :
    lastCase? (fs ++ [f]) = if f.setsCase then some f else lastCase? fs := by
  rw [lastCase?, List.filter_append, List.filter_singleton]
  cases f.setsCase with
  | true => exact List.getLast?_concat
  | false => rw [cond_false, List.append_nil, if_neg Bool.false_ne_true, lastCase?]

theorem leastCount?_concat (fs : List Filter) (f : Filter) :
    leastCount? (fs ++ [f]) =
      match count? f with
      | none => leastCount? fs
      | some n => some ((leastCount? fs).elim n (min · n)) := by
  rw [leastCount?, leastCount?, List.filterMap_append]
  cases hf : count? f with
  | none => simp [hf]
  | some n =>
    rw [List.filterMap_cons_some hf, List.filterMap_nil]
    cases fs.filterMap count? with
    | nil => rfl
    | cons m ns =>
      rw [List.cons_append, List.min?_cons', List.min?_cons', List.foldl_concat]
      rfl

/-- A filter behind the normal form of a chain gives the normal form of the longer chain. -/
theorem run_normalForm (hf : f ≠ titleword) (fs : List Filter) (s : List Char) :
    f.run (normalForm fs s) = normalForm (fs ++ [f]) s := by
  simp only [normalForm, lastCase?_concat, leastCount?_concat]
  have hcased : f.setsCase → f.run ((lastCase? fs).elim s (·.run s)) = f.run s := by
    intro hf
    cases hlast : lastCase? fs with
    | none => rfl
    | some g => exact run_run (setsCase_of_lastCase? hlast) hf s
  cases f with
  | titleword => exact absurd rfl hf
  | abbr count =>
    cases leastCount? fs with
    | none => rfl
    | some m => exact (List.take_take ..).trans (by rw [Nat.min_comm]; rfl)
  | _ =>
    cases leastCount? fs with
    | none => exact hcased rfl
    | some m => exact (run_take rfl m _).trans (congrArg (List.take m) (hcased rfl))

theorem runAll_eq_normalForm (h : titleword ∉ fs) (s : List Char) :
    runAll fs s = normalForm fs s := by
  induction fs using List.reverseRecOn with
  | nil => rfl
  | append_singleton fs f ih =>
    rw [List.mem_append, List.mem_singleton, not_or] at h
    rw [runAll_append, ih h.1, ← run_normalForm (Ne.symm h.2)]
    rfl

/-- A chain that picks no word shows what its last filter that sets the case makes of the text, cut
to the shortest abbreviation. Without such a filter it shows the text itself, and without an
abbreviation all of it. -/
theorem applyAll_eq_normalForm (h : titleword ∉ fs) (s : String) :
    (applyAll fs s).toList =
      let cased := (lastCase? fs).elim s.toList (·.run s.toList)
      (leastCount? fs).elim cased cased.take := by
  rw [toList_applyAll, runAll_eq_normalForm h]
  rfl

/-- Of three filters that set the case the last one counts, and of two abbreviations the first,
which is shorter and cuts a word. -/
theorem applyAll_eq_normalForm_capitalize :
    let fs := [uppercase, abbr 6, lowercase, abbr 9, capitalize]
    titleword ∉ fs ∧ lastCase? fs = some capitalize ∧ leastCount? fs = some 6 ∧
      applyAll fs "éT aL. ET" = "ét Al." := by
  intro fs
  have hword : titleword ∉ fs := by decide
  refine ⟨hword, by decide, by decide, ?_⟩
  rw [← String.toList_inj, applyAll_eq_normalForm hword]
  decide

end BibTemplate.Filter

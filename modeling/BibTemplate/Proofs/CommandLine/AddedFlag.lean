import BibTemplate.Proofs.CommandLine.Flags

/-!
# A flag more

A flag may be put among the arguments of a command that renders at any place where an option
may begin. The arguments behind it are then read as they were without it: they find the same
options given, and the flag besides. So the command is the same but for this flag.
-/
namespace BibTemplate.CommandLine

open Switch (Flag)

/-- The same options are given, and the flag besides. -/
structure Besides (s : Switch) (given given' : List (Switch × String)) : Prop where
  others : ∀ p, p ≠ s → given'.lookup p = given.lookup p
  flag : (given'.lookup s).isSome

namespace Reading

variable {r q : Reading} {s p : Switch} {args : List String} {arg value : String}
  {given : List (Switch × String)} {verbose : Bool} {source : TemplateSource}
  {context output : Option String} {options : RenderOptions}

/-- What has been read is the same but for the options that are given, and those have the flag
besides. -/
def Reaches (s : Switch) (read : Except Stop Reading) (q : Reading) : Prop :=
  ∃ given, read = .ok { q with given } ∧ Besides s q.given given

theorem has_of_besides (h : Besides s r.given given) (hp : p ≠ s) :
    Reading.has { r with given } p = r.has p := by
  rw [Reading.has, Reading.has, value?, value?, h.others p hp]

theorem reaches_give (h : Besides s r.given given) (hp : p ≠ s) (hgive : r.give p value = .ok q) :
    Reaches s (Reading.give { r with given } p value) q := by
  obtain ⟨hversion, hhelp, hgiven, rfl⟩ := give_eq_ok_iff.1 hgive
  refine ⟨(p, value) :: given, ?_, ?_, ?_⟩
  · rw [give_eq_ok_iff, has_of_besides h hp]
    exact ⟨hversion, hhelp, hgiven, rfl⟩
  · intro o ho
    rw [List.lookup_cons, List.lookup_cons, h.others o ho]
  · have hne : (s == p) = false := beq_eq_false_iff_ne.2 hp.symm
    rw [List.lookup_cons, hne]
    exact h.flag

/-- An option that waits for its value in the next argument. -/
theorem reaches_wait (h : Besides s r.given given) (hp : p ≠ s)
    (hwait : (if r.has p then .error .usage else .ok { r with pending := some p }) =
      (.ok q : Except Stop Reading)) :
    Reaches s (if Reading.has { r with given } p then .error .usage
      else .ok { r with given, pending := some p }) q := by
  rw [has_of_besides h hp]
  split at hwait
  · cases hwait
  · rename_i hgiven
    cases hwait
    exact ⟨given, if_neg hgiven, h⟩

theorem reaches_letters {cs : List Char} (hs : s.Flag) (h : Besides s r.given given)
    (hread : r.letters cs = .ok q) : Reaches s (Reading.letters { r with given } cs) q := by
  induction cs generalizing r given with
  | nil =>
    cases hread
    exact ⟨given, rfl, h⟩
  | cons c cs ih =>
    rw [letters] at hread ⊢
    dsimp only
    split at hread
    · cases hread
    · rename_i p hfind
      have hp : p ≠ s := by
        rintro rfl
        simpa [hs.letter] using List.find?_some hfind
      split at hread
      · rename_i hvalue
        rw [if_pos hvalue]
        split at hread
        · exact reaches_wait h hp hread
        · exact reaches_give h hp hread
        · exact reaches_give h hp hread
      · rename_i hvalue
        rw [if_neg hvalue]
        obtain ⟨r₁, hr₁, hread⟩ := bind_eq_ok_iff.1 hread
        obtain ⟨given₁, hgive, h₁⟩ := reaches_give h hp hr₁
        rw [hgive]
        exact ih h₁ hread

theorem reaches_longOption {name : List Char} (hs : s.Flag) (h : Besides s r.given given)
    (hname : name ≠ s.long.toList) (hread : r.longOption name = .ok q) :
    Reaches s (Reading.longOption { r with given } name) q := by
  simp only [longOption] at hread ⊢
  split at hread
  · cases hread
  · rename_i p hfind hrest
    have hp : p ≠ s := by
      rintro rfl
      have hlong : p.long = .ofList (name.takeWhile (· ≠ '=')) := by
        simpa using List.find?_some hfind
      have hjoin := List.takeWhile_append_dropWhile (p := (· ≠ '=')) (l := name)
      rw [hrest, List.append_nil] at hjoin
      exact hname (by rw [hlong, String.toList_ofList]; exact hjoin.symm)
    split at hread
    · rename_i hvalue
      rw [if_pos hvalue]
      exact reaches_wait h hp hread
    · rename_i hvalue
      rw [if_neg hvalue]
      exact reaches_give h hp hread
  · rename_i p c value hfind hrest
    split at hread
    · rename_i hvalue
      rw [if_pos hvalue]
      exact reaches_give h (hs.ne_of_takesValue hvalue) hread
    · cases hread

/-- Behind the name of its command an argument is read in the same way with the flag besides. -/
theorem reaches_step (hs : s.Flag) (h : Besides s r.given given) (hplace : r.place ≠ .front)
    (hpending : ∀ p, r.pending = some p → p.takesValue) (harg : arg ≠ s.argument)
    (hread : r.step arg = .ok q) : Reaches s (Reading.step { r with given } arg) q := by
  unfold step at hread ⊢
  dsimp only
  split at hread
  · cases hread
  · rename_i p _ hp _
    exact reaches_give h (hs.ne_of_takesValue (hpending p hp)) hread
  · cases hread
  · rename_i p _ hp _ _
    exact reaches_give h (hs.ne_of_takesValue (hpending p hp)) hread
  · cases hread
    exact ⟨given, rfl, h⟩
  · rename_i name _ hname
    refine reaches_longOption hs h ?_ hread
    rintro rfl
    exact harg (by rw [Switch.argument, ← hname, String.ofList_toList])
  · exact reaches_letters hs h hread
  · exact absurd (word_eq_ok hread).1 hplace

theorem place_of_give (h : r.give p value = .ok q) : q.place = r.place := by
  rw [given_of_give h]

theorem place_of_letters {cs : List Char} (h : r.letters cs = .ok q) : q.place = r.place := by
  induction cs generalizing r with
  | nil =>
    cases h
    rfl
  | cons c cs ih =>
    rw [letters] at h
    split at h
    · cases h
    · split at h
      · split at h
        · split at h
          · cases h
          · cases h
            rfl
        · exact place_of_give h
        · exact place_of_give h
      · obtain ⟨r₁, hr₁, h⟩ := bind_eq_ok_iff.1 h
        exact (ih h).trans (place_of_give hr₁)

theorem place_of_longOption {name : List Char} (h : r.longOption name = .ok q) :
    q.place = r.place := by
  simp only [longOption] at h
  split at h
  · cases h
  · split at h
    · split at h
      · cases h
      · cases h
        rfl
    · exact place_of_give h
  · split at h
    · exact place_of_give h
    · cases h

/-- The reading right behind the name of a command. -/
def behindName (place : Place) (verboseInFront : Bool) : Reading :=
  ⟨place, [], verboseInFront, none, false⟩

/-- The name of a command is read in front of it, and then nothing is given yet. -/
theorem step_cases (h : r.step arg = .ok q) :
    q.place = r.place ∨
      r.place = .front ∧
        ∃ place verboseInFront, place ≠ .front ∧ q = behindName place verboseInFront := by
  unfold step at h
  split at h
  · cases h
  · exact .inl (place_of_give h)
  · cases h
  · exact .inl (place_of_give h)
  · cases h
    exact .inl rfl
  · exact .inl (place_of_longOption h)
  · exact .inl (place_of_letters h)
  · rename_i hpending _ _ _
    obtain ⟨hfront, place, hplace, hclosed, rfl⟩ := word_eq_ok h
    refine .inr ⟨hfront, place, r.has .verbose, hplace, ?_⟩
    simp [behindName, hpending, hclosed]

theorem place_of_run (h : args.foldlM step r = .ok q) (hplace : r.place ≠ .front) :
    q.place = r.place := by
  induction args generalizing r with
  | nil =>
    cases h
    rfl
  | cons arg args ih =>
    rw [foldlM_cons_eq_bind] at h
    obtain ⟨r₁, hr₁, h⟩ := bind_eq_ok_iff.1 h
    have hsame : r₁.place = r.place := (step_cases hr₁).resolve_right fun hn => hplace hn.1
    exact (ih h (hsame ▸ hplace)).trans hsame

theorem reaches_run {before : List String} (hs : s.Flag) (hnotes : r.Notes s before)
    (h : Besides s r.given given) (hplace : r.place ≠ .front) (hargs : s.argument ∉ args)
    (hrun : args.foldlM step r = .ok q) : Reaches s (args.foldlM step { r with given }) q := by
  induction args generalizing r given before with
  | nil =>
    cases hrun
    exact ⟨given, rfl, h⟩
  | cons arg args ih =>
    rw [List.mem_cons, not_or] at hargs
    rw [foldlM_cons_eq_bind] at hrun ⊢
    obtain ⟨r₁, hr₁, hrun⟩ := bind_eq_ok_iff.1 hrun
    obtain ⟨given₁, hstep, h₁⟩ := reaches_step hs h hplace hnotes.pending (Ne.symm hargs.1) hr₁
    have hsame : r₁.place = r.place := (step_cases hr₁).resolve_right fun hn => hplace hn.1
    rw [hstep]
    exact ih (hnotes.step hs hr₁) h₁ (hsame ▸ hplace) hargs.2 hrun

/-- What has been read up to the name of a command, and what is read behind it. -/
theorem exists_behindName (h : args.foldlM step r = .ok q) (hfront : r.place = .front)
    (hplace : q.place ≠ .front) :
    ∃ before name after verboseInFront, args = before ++ name :: after ∧
      (before ++ [name]).foldlM step r = .ok (behindName q.place verboseInFront) ∧
      after.foldlM step (behindName q.place verboseInFront) = .ok q := by
  induction args generalizing r with
  | nil =>
    cases h
    exact absurd hfront hplace
  | cons arg args ih =>
    rw [foldlM_cons_eq_bind] at h
    obtain ⟨r₁, hr₁, h⟩ := bind_eq_ok_iff.1 h
    rcases step_cases hr₁ with hsame | ⟨-, place, verboseInFront, hp, rfl⟩
    · obtain ⟨before, name, after, verboseInFront, rfl, hbefore, hafter⟩ :=
        ih h (hsame.trans hfront)
      refine ⟨arg :: before, name, after, verboseInFront, rfl, ?_, hafter⟩
      rw [List.cons_append, foldlM_cons_eq_bind, hr₁]
      exact hbefore
    · have hq : q.place = place := place_of_run h hp
      rw [hq]
      refine ⟨[], arg, args, verboseInFront, rfl, ?_, h⟩
      rw [List.nil_append, foldlM_cons_eq_bind, hr₁]
      rfl

/-- The flag is understood where an option of a command that renders may begin. -/
theorem step_yamlArray (r : Reading) :
    r.step "--yaml-array" = .error .usage ∨ r.place = .render ∧
      r.step "--yaml-array" = .ok { r with given := (.yamlArray, "") :: r.given } := by
  obtain ⟨place, given, verboseInFront, pending, closed⟩ := r
  cases closed with
  | true => exact .inl rfl
  | false =>
    cases pending with
    | some p => exact .inl rfl
    | none =>
      cases place with
      | render =>
        have hstep : step ⟨.render, given, verboseInFront, none, false⟩ "--yaml-array" =
          give ⟨.render, given, verboseInFront, none, false⟩ .yamlArray "" := rfl
        rw [hstep, give, if_neg (by decide), if_neg (by decide)]
        split
        · exact .inl rfl
        · exact .inr ⟨rfl, rfl⟩
      | _ => exact .inl rfl

theorem besides_yamlArray (given : List (Switch × String)) :
    Besides .yamlArray given ((.yamlArray, "") :: given) := by
  refine ⟨?_, by rw [List.lookup_cons_self]; rfl⟩
  intro p hp
  rw [List.lookup_cons, beq_eq_false_iff_ne.2 hp]

theorem finish_of_besides (h : Besides .yamlArray r.given given)
    (hfinish : r.finish = .ok (.run verbose (.render source context output options))) :
    finish { r with given } =
      .ok (.run verbose (.render source context output { options with yamlArray := true })) := by
  rw [finish_eq_render_iff] at hfinish ⊢
  obtain ⟨hpending, hplace, rfl, hsource, rfl, rfl, rfl⟩ := hfinish
  have hvalue : ∀ p, p ≠ .yamlArray → value? { r with given } p = r.value? p := h.others
  have hflag : Reading.has { r with given } .yamlArray := h.flag
  refine ⟨hpending, hplace, ?_, ?_, hvalue .context (by decide), hvalue .output (by decide), ?_⟩
  · rw [has_of_besides h (p := .verbose) (by decide)]
  · rw [← hsource, source?, source?, hvalue .template (by decide),
      hvalue .templateFile (by decide)]
  · rw [has_of_besides h (p := .citekey) (by decide), hflag]

end Reading

variable {args : List String} {verbose : Bool} {source : TemplateSource}
  {context output : Option String} {options : RenderOptions}

/-- The flag for arrays, put where it is understood, sets its option and nothing else. -/
theorem ofArguments?_of_step {before after : List String} {r q : Reading}
    (hbefore : before.foldlM Reading.step .start = .ok r) (hplace : r.place = .render)
    (hstep : r.step "--yaml-array" = .ok { r with given := (.yamlArray, "") :: r.given })
    (hafter : after.foldlM Reading.step r = .ok q) (hlacks : "--yaml-array" ∉ after)
    (hfinish : q.finish = .ok (.run verbose (.render source context output options))) :
    Request.ofArguments? (before ++ "--yaml-array" :: after) =
      some (.run verbose (.render source context output { options with yamlArray := true })) := by
  have hnotes := (Reading.notes_start .yamlArray).run Switch.flag_yamlArray hbefore
  obtain ⟨given, hrun, hbesides⟩ := Reading.reaches_run Switch.flag_yamlArray hnotes
    (Reading.besides_yamlArray r.given) (by simp [hplace]) hlacks hafter
  have hread : (before ++ "--yaml-array" :: after).foldlM Reading.step .start =
      .ok { q with given } := by
    rw [foldlM_append_eq_bind, hbefore, Except.bind, foldlM_cons_eq_bind, hstep]
    exact hrun
  exact ofArguments?_eq_run_iff.2 ⟨_, hread, Reading.finish_of_besides hbesides hfinish⟩

/-- Among the arguments of a command that renders without the flag, it is either not understood or
sets its option and nothing else. -/
theorem ofArguments?_insert_yamlArray {before after : List String}
    (h : Request.ofArguments? (before ++ after) =
      some (.run verbose (.render source context output options)))
    (hlacks : "--yaml-array" ∉ before ++ after)
    (haccepted : Request.ofArguments? (before ++ "--yaml-array" :: after) ≠ none) :
    Request.ofArguments? (before ++ "--yaml-array" :: after) =
      some (.run verbose (.render source context output { options with yamlArray := true })) := by
  obtain ⟨q, hread, hfinish⟩ := ofArguments?_eq_run_iff.1 h
  rw [foldlM_append_eq_bind] at hread
  obtain ⟨r, hbefore, hafter⟩ := bind_eq_ok_iff.1 hread
  rcases r.step_yamlArray with hrefused | ⟨hplace, hstep⟩
  · refine absurd ?_ haccepted
    rw [Request.ofArguments?, foldlM_append_eq_bind, hbefore, Except.bind, foldlM_cons_eq_bind,
      hrefused]
    rfl
  · exact ofArguments?_of_step hbefore hplace hstep hafter
      (fun hmem => hlacks (List.mem_append_right before hmem)) hfinish

/-- Right behind the name of its command the flag is understood. -/
theorem exists_insert_yamlArray
    (h : Request.ofArguments? args = some (.run verbose (.render source context output options)))
    (hlacks : "--yaml-array" ∉ args) :
    ∃ before after, args = before ++ after ∧
      Request.ofArguments? (before ++ "--yaml-array" :: after) ≠ none := by
  obtain ⟨q, hread, hfinish⟩ := ofArguments?_eq_run_iff.1 h
  have hplace := (Reading.finish_eq_render_iff.1 hfinish).2.1
  obtain ⟨before, name, after, verboseInFront, rfl, hbefore, hafter⟩ :=
    Reading.exists_behindName hread rfl (by simp [hplace])
  rw [hplace] at hbefore hafter
  refine ⟨before ++ [name], after, by simp, ?_⟩
  rw [ofArguments?_of_step hbefore rfl rfl hafter
    (fun hmem => hlacks (List.mem_append_right before (List.mem_cons_of_mem name hmem))) hfinish]
  exact Option.some_ne_none _

end BibTemplate.CommandLine

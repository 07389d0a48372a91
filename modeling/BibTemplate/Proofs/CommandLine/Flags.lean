import BibTemplate.CommandLine.Arguments
import BibTemplate.Proofs.Outcomes

/-!
# Flags

A flag has no letter and takes no value, so it is given by its own argument and in no other
way. What the arguments ask for has a flag just when that argument is among them.
-/
namespace BibTemplate.CommandLine

namespace Switch

/-- The long form of an option, as an argument of its own. -/
def argument (s : Switch) : String := .ofList ('-' :: '-' :: s.long.toList)

/-- An option without letter and value, for the command that renders alone. -/
structure Flag (s : Switch) : Prop where
  letter : s.letter? = none
  value : s.takesValue = false
  place : s ∉ Place.front.switches

theorem flag_citekey : citekey.Flag := ⟨rfl, rfl, by decide⟩

theorem flag_yamlArray : yamlArray.Flag := ⟨rfl, rfl, by decide⟩

theorem long_injective {s t : Switch} (h : s.long = t.long) : s = t := by
  cases s <;> cases t <;> first | rfl | exact absurd h (by decide)

theorem equals_notMem_long (s : Switch) : '=' ∉ s.long.toList := by
  cases s <;> decide

theorem Flag.ne_of_takesValue {s t : Switch} (hs : s.Flag) (ht : t.takesValue) : t ≠ s := by
  rintro rfl
  rw [hs.value] at ht
  cases ht

end Switch

namespace Reading

open Switch (Flag)

variable {r r' : Reading} {s p : Switch} {args : List String} {arg value : String}

/-- What has been read so far has an option just when its argument was among it. -/
structure Notes (s : Switch) (args : List String) (r : Reading) : Prop where
  has : r.has s ↔ s.argument ∈ args
  front : r.place = .front → r.has s = false
  pending : ∀ p, r.pending = some p → p.takesValue

theorem has_cons {given : List (Switch × String)} (h : r'.given = (p, value) :: given)
    (hr : r.given = given) (s : Switch) : r'.has s = (s == p || r.has s) := by
  rw [Reading.has, value?, h, List.lookup_cons, Reading.has, value?, hr]
  cases s == p <;> rfl

theorem give_eq_ok_iff : r.give p value = .ok r' ↔ p ≠ .version ∧ p ≠ .help ∧ r.has p = false ∧
    r' = { r with given := (p, value) :: r.given, pending := none } := by
  rw [give]
  split_ifs with hversion hhelp hgiven
  · exact iff_of_false nofun fun h => h.1 hversion
  · exact iff_of_false nofun fun h => h.2.1 hhelp
  · exact iff_of_false nofun fun h => absurd hgiven (by rw [h.2.2.1]; exact Bool.false_ne_true)
  · rw [Except.ok.injEq, and_iff_right hversion, and_iff_right hhelp,
      and_iff_right (by simpa using hgiven)]
    exact eq_comm

theorem given_of_give (h : r.give p value = .ok r') :
    r' = { r with given := (p, value) :: r.given, pending := none } :=
  (give_eq_ok_iff.1 h).2.2.2

theorem ne_of_find? {q : Switch → Bool} (h : r.place.switches.find? q = some p) (hs : s.Flag) :
    r.place = .front → p ≠ s := by
  intro hfront he
  have hmem := List.mem_of_find?_eq_some h
  rw [hfront] at hmem
  exact hs.place (he ▸ hmem)

/-- An option that is noted comes from its own argument or is another one. -/
theorem Notes.give (h : r.Notes s args) (hgive : r.give p value = .ok r')
    (hfront : r.place = .front → p ≠ s) (harg : p = s ↔ arg = s.argument) :
    r'.Notes s (args ++ [arg]) := by
  obtain rfl := given_of_give hgive
  refine ⟨?_, ?_, nofun⟩
  · rw [has_cons rfl rfl, Bool.or_eq_true, h.has, beq_iff_eq, List.mem_append, List.mem_singleton,
      or_comm, eq_comm (a := s), harg, eq_comm (a := arg)]
  · intro hplace
    rw [has_cons rfl rfl, h.front hplace, Bool.or_false, beq_eq_false_iff_ne]
    exact (hfront hplace).symm

theorem Notes.skip (h : r.Notes s args) (hgiven : r'.given = r.given) (hplace : r'.place = r.place)
    (hpending : ∀ p, r'.pending = some p → p.takesValue) (harg : arg ≠ s.argument) :
    r'.Notes s (args ++ [arg]) := by
  have hhas : r'.has s = r.has s := by rw [Reading.has, value?, hgiven, Reading.has, value?]
  refine ⟨?_, ?_, hpending⟩
  · rw [hhas, h.has, List.mem_append, List.mem_singleton, or_iff_left harg.symm]
  · rw [hhas, hplace]
    exact h.front

theorem Notes.longOption {name : List Char} (h : r.Notes s args) (hs : s.Flag)
    (harg : arg.toList = '-' :: '-' :: name) (hstep : r.longOption name = .ok r') :
    r'.Notes s (args ++ [arg]) := by
  have hname : arg = s.argument ↔ name = s.long.toList := by
    rw [← String.toList_inj, harg, Switch.argument, String.toList_ofList]
    simp
  have hlong : ∀ p : Switch, p.long = .ofList (name.takeWhile (· ≠ '=')) →
      name.takeWhile (· ≠ '=') = p.long.toList := fun p hp => by rw [hp, String.toList_ofList]
  simp only [Reading.longOption] at hstep
  split at hstep
  · cases hstep
  · rename_i p hfind hrest
    have hwhole : name = p.long.toList := by
      have hjoin := List.takeWhile_append_dropWhile (p := (· ≠ '=')) (l := name)
      rw [hrest, List.append_nil] at hjoin
      exact hjoin.symm.trans (hlong p (by simpa using List.find?_some hfind))
    have hiff : p = s ↔ arg = s.argument := by
      rw [hname, hwhole, String.toList_inj]
      exact ⟨congrArg Switch.long, Switch.long_injective⟩
    split at hstep
    · rename_i hvalue
      split at hstep
      · cases hstep
      · cases hstep
        have hne : p ≠ s := hs.ne_of_takesValue hvalue
        exact h.skip rfl rfl (by simpa using hvalue) fun he => hne (hiff.2 he)
    · exact h.give hstep (ne_of_find? hfind hs) hiff
  · rename_i p c value hfind hrest
    split at hstep
    · rename_i hvalue
      have hequals : '=' ∈ name := by
        have hc : c = '=' := by
          have hhead := List.head?_dropWhile_not (fun c => decide (c ≠ '=')) name
          rw [hrest] at hhead
          simpa using hhead
        have hmem : c ∈ name.dropWhile (· ≠ '=') := hrest ▸ List.mem_cons_self
        exact hc ▸ (List.dropWhile_suffix _).subset hmem
      have hne : arg ≠ s.argument := by
        intro he
        exact s.equals_notMem_long (hname.1 he ▸ hequals)
      exact h.give hstep (ne_of_find? hfind hs)
        (iff_of_false (hs.ne_of_takesValue hvalue) hne)
    · cases hstep

theorem letters_keeps {cs : List Char} (hs : s.Flag) (h : r.letters cs = .ok r')
    (hpending : ∀ p, r.pending = some p → p.takesValue) :
    r'.has s = r.has s ∧ r'.place = r.place ∧ ∀ p, r'.pending = some p → p.takesValue := by
  induction cs generalizing r with
  | nil =>
    cases h
    exact ⟨rfl, rfl, hpending⟩
  | cons c cs ih =>
    rw [letters] at h
    split at h
    · cases h
    · rename_i p hfind
      have hne : (s == p) = false := by
        rw [beq_eq_false_iff_ne]
        rintro rfl
        simpa [hs.letter] using List.find?_some hfind
      have hgive : ∀ {value r'}, r.give p value = .ok r' →
          r'.has s = r.has s ∧ r'.place = r.place ∧ ∀ p, r'.pending = some p → p.takesValue := by
        intro value r' hgive
        obtain rfl := given_of_give hgive
        exact ⟨by rw [has_cons rfl rfl, hne, Bool.false_or], rfl, nofun⟩
      split at h
      · rename_i hvalue
        split at h
        · split at h
          · cases h
          · cases h
            exact ⟨rfl, rfl, by simpa using hvalue⟩
        · exact hgive h
        · exact hgive h
      · obtain ⟨r₁, hr₁, h⟩ := bind_eq_ok_iff.1 h
        obtain ⟨hhas, hplace, hpend⟩ := hgive hr₁
        obtain ⟨hhas', hplace', hpend'⟩ := ih h hpend
        exact ⟨hhas'.trans hhas, hplace'.trans hplace, hpend'⟩

theorem ne_front_of_ofCommand? {name : String} {place : Place}
    (h : Place.ofCommand? name = some place) : place ≠ .front := by
  rintro rfl
  unfold Place.ofCommand? at h
  split_ifs at h <;> cases h

/-- The name of a command is read in front of it. -/
theorem word_eq_ok (h : r.word arg = .ok r') :
    r.place = .front ∧ ∃ place, place ≠ .front ∧ r.closed = false ∧
      r' = { r with place, given := [], verboseInFront := r.has .verbose } := by
  unfold word at h
  split at h
  · rename_i place hfront hplace
    split_ifs at h with hclosed hhelp
    cases h
    exact ⟨hfront, place, ne_front_of_ofCommand? hplace, by simpa using hclosed, rfl⟩
  · cases h

/-- One more argument. An option that waits for its value takes one, so it is no flag, and the
name of a command leaves nothing of what stood in front of it. -/
theorem Notes.step (h : r.Notes s args) (hs : s.Flag) (hstep : r.step arg = .ok r') :
    r'.Notes s (args ++ [arg]) := by
  have hargument : s.argument.toList = '-' :: '-' :: s.long.toList := String.toList_ofList
  have hne : ∀ {cs}, arg.toList = cs → cs ≠ '-' :: '-' :: s.long.toList → arg ≠ s.argument := by
    rintro cs harg hcs rfl
    exact hcs (harg.symm.trans hargument)
  have hpending : ∀ {p}, r.pending = some p → p ≠ s :=
    fun hp => hs.ne_of_takesValue (h.pending _ hp)
  unfold Reading.step at hstep
  split at hstep
  · cases hstep
  · rename_i p _ hp harg
    exact h.give hstep (fun _ => hpending hp) (iff_of_false (hpending hp) (hne harg (by simp)))
  · cases hstep
  · rename_i p _ hp _ hnot
    have harg : arg ≠ s.argument := by
      rintro rfl
      exact hnot _ hargument
    exact h.give hstep (fun _ => hpending hp) (iff_of_false (hpending hp) harg)
  · rename_i harg
    cases hstep
    have hlong : s.long.toList ≠ [] := by cases s <;> decide
    exact h.skip rfl rfl h.pending (hne harg (by simpa using hlong.symm))
  · exact h.longOption hs (by assumption) hstep
  · rename_i c cs _ hc _ _ harg
    obtain ⟨hhas, hplace, hpend⟩ := letters_keeps hs hstep h.pending
    have harg' : arg ≠ s.argument :=
      hne harg fun he => hc (List.cons.inj (List.cons.inj he).2).1
    refine ⟨?_, ?_, hpend⟩
    · rw [hhas, h.has, List.mem_append, List.mem_singleton, or_iff_left harg'.symm]
    · rw [hhas, hplace]
      exact h.front
  · rename_i hnot _
    have harg : arg ≠ s.argument := by
      rintro rfl
      exact hnot _ hargument
    obtain ⟨hfront, place, -, -, rfl⟩ := word_eq_ok hstep
    have hbefore : s.argument ∉ args := by
      rw [← h.has, h.front hfront]
      exact Bool.false_ne_true
    refine ⟨?_, fun _ => rfl, h.pending⟩
    simp [Reading.has, value?, hbefore, harg.symm]

theorem Notes.run {before : List String} (h : r.Notes s before) (hs : s.Flag)
    (hrun : args.foldlM Reading.step r = .ok r') : r'.Notes s (before ++ args) := by
  induction args generalizing r before with
  | nil =>
    cases hrun
    rwa [List.append_nil]
  | cons arg args ih =>
    rw [foldlM_cons_eq_bind] at hrun
    obtain ⟨r₁, hr₁, hrun⟩ := bind_eq_ok_iff.1 hrun
    rw [List.append_cons]
    exact ih (h.step hs hr₁) hrun

theorem notes_start (s : Switch) : start.Notes s [] :=
  ⟨by simp [start, Reading.has, value?], fun _ => rfl, nofun⟩

end Reading

variable {args : List String} {verbose : Bool} {source : TemplateSource}
  {context output : Option String} {options : RenderOptions}

theorem Reading.finish_eq_render_iff {r : Reading} :
    r.finish = .ok (.run verbose (.render source context output options)) ↔
      r.pending = none ∧ r.place = .render ∧ (r.verboseInFront || r.has .verbose) = verbose ∧
        r.source? = some source ∧ r.value? .context = context ∧ r.value? .output = output ∧
        ⟨r.has .citekey, r.has .yamlArray⟩ = options := by
  obtain ⟨place, given, verboseInFront, pending, closed⟩ := r
  cases pending with
  | some p => simp [finish]
  | none =>
    rw [finish, command?]
    cases place with
    | render =>
      dsimp only
      generalize source? _ = found
      cases found <;> simp
    | front | filters | help => simp
    | check =>
      dsimp only
      generalize source? _ = found
      cases found <;> simp

theorem Reading.helpAfter?_ne_run {command : Command} (args : List String) :
    helpAfter? args ≠ some (.run verbose command) := by
  unfold helpAfter?
  split <;> simp

theorem ofArguments?_eq_run_iff {command : Command} :
    Request.ofArguments? args = some (.run verbose command) ↔
      ∃ q, args.foldlM Reading.step .start = .ok q ∧ q.finish = .ok (.run verbose command) := by
  rw [← bind_eq_ok_iff, Request.ofArguments?]
  cases (args.foldlM Reading.step .start).bind Reading.finish with
  | ok request => simp
  | error stop => cases stop <;> simp [Reading.helpAfter?_ne_run]

/-- The options of a run that renders are set by their flags alone. -/
theorem options_iff_mem
    (h : Request.ofArguments? args = some (.run verbose (.render source context output options))) :
    (options.sanitizeForCitekey ↔ "--citekey" ∈ args) ∧
      (options.yamlArray ↔ "--yaml-array" ∈ args) := by
  obtain ⟨r, hrun, hfinish⟩ := ofArguments?_eq_run_iff.1 h
  have hcitekey := ((Reading.notes_start .citekey).run Switch.flag_citekey hrun).has
  have hyaml := ((Reading.notes_start .yamlArray).run Switch.flag_yamlArray hrun).has
  obtain ⟨-, -, -, -, -, -, rfl⟩ := Reading.finish_eq_render_iff.1 hfinish
  exact ⟨hcitekey, hyaml⟩

end BibTemplate.CommandLine

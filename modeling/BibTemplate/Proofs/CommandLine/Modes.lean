import BibTemplate.Proofs.CommandLine.AddedFlag
import BibTemplate.Proofs.CommandLine.Stages
import BibTemplate.Proofs.Render.Modes

/-!
# Modes of a run that renders

The stages before the text leave their lines in the log whatever is done with the text. Then
comes a line for the text, and with the flag for arrays one that says whether the text is an
array. This is all that the flag does: what is put out, how the run ends and what becomes of the
files does not depend on it. The other mode leaves out characters of the text and nothing else.
-/
namespace BibTemplate.CommandLine

/-- The same event of a run whose text is meant to be an array. -/
def LogEvent.forArray : LogEvent → LogEvent
  | renderedTemplate options bytes => renderedTemplate { options with yamlArray := true } bytes
  | e => e

/-- The event of a template that has been read. -/
def LogEvent.IsParsed (e : LogEvent) : Prop :=
  ∃ bytes nodes, e = .parsedTemplate bytes nodes

theorem LogEvent.isWarning_forArray (e : LogEvent) : e.forArray.isWarning = e.isWarning := by
  cases e <;> rfl

theorem LogEvent.IsParsed.forArray_eq {e : LogEvent} (h : e.IsParsed) : e.forArray = e := by
  obtain ⟨bytes, nodes, rfl⟩ := h
  rfl

theorem LogEvent.IsParsed.isWarning_eq {e : LogEvent} (h : e.IsParsed) : e.isWarning = false := by
  obtain ⟨bytes, nodes, rfl⟩ := h
  rfl

variable {input : ByteArray} {d : Directory} {source : TemplateSource}
  {context output : Option String} {options : RenderOptions} {text : String}

namespace Dialogue

/-- The stages up to a template and a context. -/
def prepare (source : TemplateSource) (context : Option String)
    (next : Template → Value → Dialogue) : Dialogue :=
  readTemplate source fun text =>
    parseTemplate .renderTemplate text fun t =>
      readContext context fun json => parseContext json (next t)

theorem ofCommand_render :
    ofCommand (.render source context output options) =
      prepare source context fun t v => Dialogue.output t v options output := rfl

/-- The stages of the template come to a template or end the run, whatever would be done next. -/
theorem hold_template (input : ByteArray) (d : Directory) (source : TemplateSource) :
    (∃ t parsed, HasTemplate d source t ∧ parsed.IsParsed ∧
      ∀ next, (readTemplate source (parseTemplate .renderTemplate · next)).hold input d =
        let ending := (next t).hold input d
        { ending with log := parsed :: ending.log }) ∨
    (∀ t, ¬ HasTemplate d source t) ∧ ∃ failure,
      ∀ next, (readTemplate source (parseTemplate .renderTemplate · next)).hold input d =
        ⟨[], .error failure, d⟩ := by
  cases htext : source.text? d with
  | none =>
    refine .inr ⟨?_, ?_⟩
    · rintro t ⟨text, hsome, -⟩
      cases htext.symm.trans hsome
    · cases source with
      | inline text => cases htext
      | file path =>
        rw [TemplateSource.text?] at htext
        refine ⟨.templateFile path, fun next => ?_⟩
        rw [readTemplate, hold, withText, htext, hold]
  | some text =>
    simp only [hold_readTemplate htext, parseTemplate]
    cases hparse : Template.parse text with
    | error e =>
      refine .inr ⟨?_, .renderTemplate e, fun next => rfl⟩
      rintro t ⟨text', htext', hparse'⟩
      cases htext.symm.trans htext'
      cases hparse.symm.trans hparse'
    | ok t => exact .inl ⟨t, _, ⟨text, htext, hparse⟩, ⟨_, _, rfl⟩, fun next => rfl⟩

/-- The stages of the context come to a value or end the run, whatever would be done next. -/
theorem hold_context (input : ByteArray) (d : Directory) (context : Option String) :
    (∃ v, HasContext input d context v ∧
      ∀ next, (readContext context (parseContext · next)).hold input d = (next v).hold input d) ∨
    (∀ v, ¬ HasContext input d context v) ∧ ∃ failure,
      ∀ next, (readContext context (parseContext · next)).hold input d =
        ⟨[], .error failure, d⟩ := by
  cases htext : contextText? input d context with
  | none =>
    refine .inr ⟨?_, ?_⟩
    · rintro v ⟨text, hsome, -⟩
      cases htext.symm.trans hsome
    · cases context with
      | none =>
        rw [contextText?, Option.elim_none] at htext
        refine ⟨.standardInput, fun next => ?_⟩
        rw [readContext, hold, withText, htext, hold]
      | some path =>
        rw [contextText?, Option.elim_some] at htext
        refine ⟨.contextFile path, fun next => ?_⟩
        rw [readContext, hold, withText, htext, hold]
  | some text =>
    simp only [hold_readContext htext, parseContext]
    cases hv : contextOf text with
    | error fault =>
      refine .inr ⟨?_, .context fault, fun next => rfl⟩
      rintro v ⟨text', htext', hv'⟩
      cases htext.symm.trans htext'
      cases hv.symm.trans (contextOf_eq_ok_iff.2 hv')
    | ok v => exact .inl ⟨v, ⟨text, htext, contextOf_eq_ok_iff.1 hv⟩, fun next => rfl⟩

/-- The stages before the text come to a template and a context, or end the run, whatever would
be done next. -/
theorem hold_prepare (input : ByteArray) (d : Directory) (source : TemplateSource)
    (context : Option String) :
    (∃ t v parsed, HasTemplate d source t ∧ HasContext input d context v ∧ parsed.IsParsed ∧
      ∀ next, (prepare source context next).hold input d =
        let ending := (next t v).hold input d
        { ending with log := parsed :: ending.log }) ∨
    (∀ t v, HasTemplate d source t → ¬ HasContext input d context v) ∧
      ∃ ending : Ending, (∀ e ∈ ending.log, e.IsParsed) ∧
        ∀ next, (prepare source context next).hold input d = ending := by
  rcases hold_template input d source with ⟨t, parsed, ht, hparsed, htemplate⟩ | ⟨hno, failure, hfail⟩
  · rcases hold_context input d context with ⟨v, hv, hcontext⟩ | ⟨hno, failure, hfail⟩
    · refine .inl ⟨t, v, parsed, ht, hv, hparsed, fun next => ?_⟩
      rw [prepare, htemplate, hcontext]
    · refine .inr ⟨fun _ v _ => hno v, ⟨[parsed], .error failure, d⟩, ?_, fun next => ?_⟩
      · exact List.forall_mem_singleton.2 hparsed
      · rw [prepare, htemplate, hfail]
  · exact .inr ⟨fun t _ ht => absurd ht (hno t), ⟨[], .error failure, d⟩, List.forall_mem_nil _,
      fun next => hfail _⟩

theorem log_hold_writeOutput (input : ByteArray) (d : Directory) (path : Option String)
    (text : String) :
    ((writeOutput path text).hold input d).log = [] := by
  cases path with
  | none => rfl
  | some path =>
    rw [writeOutput, hold]
    split <;> rfl

theorem hold_output_eq (t : Template) (v : Value) (options : RenderOptions)
    (path : Option String) :
    (Dialogue.output t v options path).hold input d =
      let text := t.render v options
      { (writeOutput path text).hold input d with
        log := .renderedTemplate options text.utf8ByteSize ::
          if options.yamlArray then [checkArray text] else [] } := by
  have hlog := log_hold_writeOutput input d path (t.render v options)
  rw [Dialogue.output]
  simp only [hold]
  split
  · rw [hold, hlog]
  · rw [hlog]

/-- The log of a run that comes to its text. -/
theorem log_hold_of_renders (output : Option String)
    (h : Renders input d source context options text) :
    ∃ parsed, parsed.IsParsed ∧
      ((ofCommand (.render source context output options)).hold input d).log =
        parsed :: .renderedTemplate options text.utf8ByteSize ::
          if options.yamlArray then [checkArray text] else [] := by
  obtain ⟨t, v, ht, hv, rfl⟩ := h
  rw [ofCommand_render]
  rcases hold_prepare input d source context with
    ⟨t', v', parsed, ht', hv', hparsed, hhold⟩ | ⟨hno, -⟩
  · cases ht.unique ht'
    cases hv.unique hv'
    rw [hhold, hold_output_eq]
    exact ⟨parsed, hparsed, rfl⟩
  · exact absurd hv (hno t v ht)

/-- With the flag for arrays a run ends as it does without it, and its log goes on to say whether
its text is an array if it comes to one. -/
theorem hold_forArray (input : ByteArray) (d : Directory) (source : TemplateSource)
    (context output : Option String) (h : options.yamlArray = false) :
    let plain := (ofCommand (.render source context output options)).hold input d
    let checked := (ofCommand (.render source context output
      { options with yamlArray := true })).hold input d
    checked.Like plain ∧ (∀ e ∈ plain.log, e.isWarning = false) ∧
      (∀ text, Renders input d source context options text →
        checked.log = plain.log.map .forArray ++ [checkArray text]) ∧
      ((∀ text, ¬ Renders input d source context options text) →
        checked.log = plain.log.map .forArray) := by
  intro plain checked
  have hplain : plain = _ := congrArg (hold input · d) ofCommand_render
  have hchecked : checked = _ := congrArg (hold input · d) ofCommand_render
  rcases hold_prepare input d source context with
    ⟨t, v, parsed, ht, hv, hparsed, hhold⟩ | ⟨hno, ending, hlog, hhold⟩
  · have hrenders : Renders input d source context options (t.render v options) :=
      ⟨t, v, ht, hv, rfl⟩
    rw [hhold, hold_output_eq] at hplain hchecked
    rw [hplain, hchecked]
    refine ⟨⟨rfl, rfl⟩, ?_, ?_, fun hnone => absurd hrenders (hnone _)⟩
    · simp only [h, Bool.false_eq_true, if_false, List.forall_mem_cons]
      exact ⟨hparsed.isWarning_eq, rfl, List.forall_mem_nil _⟩
    · rintro text ⟨t', v', ht', hv', rfl⟩
      cases ht.unique ht'
      cases hv.unique hv'
      simp only [h, Bool.false_eq_true, if_true, if_false, List.map_cons, hparsed.forArray_eq]
      rfl
  · rw [hhold] at hplain hchecked
    rw [hplain, hchecked]
    refine ⟨⟨rfl, rfl⟩, fun e he => (hlog e he).isWarning_eq, ?_, fun _ => ?_⟩
    · rintro text ⟨t, v, ht, hv, -⟩
      exact absurd hv (hno t v ht)
    · have hsame : ending.log.map .forArray = ending.log.map id :=
        List.map_congr_left fun e he => (hlog e he).forArray_eq
      rw [hsame, List.map_id]

theorem checkArray_of_list {items : List Value} (h : Json.read text = .ok (.list items)) :
    checkArray text = .arrayOutput items.length := by
  rw [checkArray, h]

theorem isWarning_checkArray (h : ∀ items, Json.read text ≠ .ok (.list items)) :
    (checkArray text).isWarning := by
  rw [checkArray]
  split
  · rename_i items hread
    exact absurd hread (h items)
  · rfl
  · rfl

end Dialogue

theorem filter_map_forArray (verbose : Bool) (events : List LogEvent) :
    (events.map LogEvent.forArray).filter (LogEvent.shown verbose) =
      (events.filter (LogEvent.shown verbose)).map LogEvent.forArray := by
  have hshown : LogEvent.shown verbose ∘ LogEvent.forArray = LogEvent.shown verbose := by
    funext e
    rw [Function.comp, LogEvent.shown, LogEvent.shown, e.isWarning_forArray]
  rw [List.filter_map, hshown]

theorem Ending.Like.exitStatus_eq {e f : Ending} (h : e.Like f) :
    exitStatus (some e) = exitStatus (some f) := by
  obtain ⟨log, result, directory⟩ := e
  obtain ⟨log', result', directory'⟩ := f
  obtain rfl : result = result' := h.1
  cases result <;> rfl

theorem run?_eq {args : List String} {verbose : Bool} {command : Command}
    (h : Request.ofArguments? args = some (.run verbose command)) (input : ByteArray)
    (d : Directory) :
    run? args input d = some
      (let ending := (Dialogue.ofCommand command).hold input d
      { ending with log := ending.log.filter (·.shown verbose) }) := by
  rw [run?, h]

/-- The mode for citekeys keeps the characters of citekeys in their order and leaves out all others,
template by template and once for all. The mode for arrays changes no text. Its flag can be added to
any command that renders without it, and wherever it is understood the run ends as before, puts
out the same and leaves the same files. The log says besides that the text is meant to be an
array, and has one warning more just when there is a text that is no array in JSON. -/
theorem modes_only_finish :
    (∀ (t : Template) (context : Value) (yaml : Bool),
      t.render context ⟨true, yaml⟩ = citekeyLetters (t.render context ⟨false, yaml⟩) ∧
      citekeyLetters (t.render context ⟨true, yaml⟩) = t.render context ⟨true, yaml⟩) ∧
    (∀ a b t u, Template.parse a = .ok t → ¬ ['{', '{'] <:+: (Segments.ofChars a.toList).tail →
      ¬ (a.toList.getLast? = some '{' ∧ b.toList.head? = some '{') → Template.parse b = .ok u →
        ∃ v, Template.parse (a ++ b) = .ok v ∧ ∀ context yaml,
          v.render context ⟨true, yaml⟩ =
            t.render context ⟨true, yaml⟩ ++ u.render context ⟨true, yaml⟩) ∧
    (∀ (t : Template) (context : Value) (citekey yaml : Bool),
      t.render context ⟨citekey, yaml⟩ = t.render context ⟨citekey, false⟩) ∧
    ∀ args verbose source context output options,
      Request.ofArguments? args = some (.run verbose (.render source context output options)) →
      "--yaml-array" ∉ args →
      (∃ before after, args = before ++ after ∧
        Request.ofArguments? (before ++ "--yaml-array" :: after) ≠ none) ∧
      ∀ before after, args = before ++ after →
        Request.ofArguments? (before ++ "--yaml-array" :: after) ≠ none → ∀ input d,
        ∃ plain checked, run? args input d = some plain ∧
          run? (before ++ "--yaml-array" :: after) input d = some checked ∧
          exitStatus (some checked) = exitStatus (some plain) ∧
          checked.result = plain.result ∧ checked.directory = plain.directory ∧
          (∀ e ∈ plain.log, e.isWarning = false) ∧
          (∀ text, Renders input d source context options text →
            (∀ items, Json.read text ≠ .ok (.list items)) →
              ∃ warning : LogEvent, warning.isWarning ∧
                checked.log = plain.log.map .forArray ++ [warning]) ∧
          (∀ text items, Renders input d source context options text →
            Json.read text = .ok (.list items) →
              checked.log = plain.log.map .forArray ++
                if verbose then [.arrayOutput items.length] else []) ∧
          ((∀ text, ¬ Renders input d source context options text) →
            checked.log = plain.log.map .forArray) := by
  refine ⟨?_, ?_, fun t => t.render_yamlArray, ?_⟩
  · intro t context yaml
    rw [t.render_citekey]
    exact ⟨rfl, citekeyLetters_citekeyLetters _⟩
  · intro a b t u ha hpair hseam hb
    obtain ⟨v, hv, hrender⟩ := Template.exists_parse_append ha hpair hseam hb
    exact ⟨v, hv, fun context yaml => hrender context ⟨true, yaml⟩⟩
  · intro args verbose source context output options hargs hlacks
    refine ⟨exists_insert_yamlArray hargs hlacks, ?_⟩
    rintro before after rfl haccepted input d
    have hchecked := ofArguments?_insert_yamlArray hargs hlacks haccepted
    have hyaml : options.yamlArray = false := by
      rw [← Bool.not_eq_true, (options_iff_mem hargs).2]
      exact hlacks
    obtain ⟨⟨hresult, hdirectory⟩, hquiet, htext, hnone⟩ :=
      Dialogue.hold_forArray input d source context output hyaml
    refine ⟨_, _, run?_eq hargs input d, run?_eq hchecked input d, ?_, hresult, hdirectory,
      fun e he => hquiet e (List.mem_of_mem_filter he), ?_, ?_, ?_⟩
    · exact Ending.Like.exitStatus_eq ⟨hresult, hdirectory⟩
    · intro text hrenders hno
      have hwarning := Dialogue.isWarning_checkArray hno
      have hshown : (Dialogue.checkArray text).shown verbose := by
        rw [LogEvent.shown, hwarning, Bool.or_true]
      refine ⟨Dialogue.checkArray text, hwarning, ?_⟩
      dsimp only
      rw [htext text hrenders, List.filter_append, filter_map_forArray,
        List.filter_cons_of_pos hshown, List.filter_nil]
    · intro text items hrenders hread
      dsimp only
      rw [htext text hrenders, List.filter_append, filter_map_forArray,
        Dialogue.checkArray_of_list hread]
      cases verbose <;> rfl
    · intro hno
      dsimp only
      rw [hnone hno, filter_map_forArray]

/-- A text that is no JSON, with the flag between two other options and the context found from the
root. -/
theorem modes_only_finish_warns :
    let args := ["render", "-t", "x", "-c", "/home/item.json", "-v"]
    let d := Directory.ofFiles ["home"] [(["item.json"], "\x7b\x7d".toUTF8)]
    Request.ofArguments? args =
        some (.run true (.render (.inline "x") (some "/home/item.json") none {})) ∧
      "--yaml-array" ∉ args ∧
      ∃ plain checked warning, run? args "".toUTF8 d = some plain ∧
        run? ["render", "-t", "x", "--yaml-array", "-c", "/home/item.json", "-v"] "".toUTF8 d =
          some checked ∧
        checked.result = plain.result ∧ warning.isWarning ∧
        checked.log = plain.log.map LogEvent.forArray ++ [warning] := by
  intro args d
  have hargs : Request.ofArguments? args =
      some (.run true (.render (.inline "x") (some "/home/item.json") none {})) := rfl
  have hlacks : "--yaml-array" ∉ args := by decide
  have hparse : Template.parse "x" = .ok ⟨[.literal "x"]⟩ :=
    Template.parse_of_no_tag rfl (by decide)
  have hcontext : HasContext "".toUTF8 d (some "/home/item.json") (.object []) :=
    ⟨"\x7b\x7d", fromUTF8?_toUTF8 "\x7b\x7d", .json (by decide) rfl⟩
  have hrenders : Renders "".toUTF8 d (.inline "x") (some "/home/item.json") {} "x" :=
    ⟨_, .object [], ⟨"x", rfl, hparse⟩, hcontext, rfl⟩
  have haccepted : Request.ofArguments?
      ["render", "-t", "x", "--yaml-array", "-c", "/home/item.json", "-v"] ≠ none :=
    Option.some_ne_none _
  have hno : ∀ items, Json.read "x" ≠ .ok (.list items) := by
    intro items h
    cases h
  obtain ⟨-, -, -, hflag⟩ := modes_only_finish
  obtain ⟨-, hinsert⟩ := hflag args true _ _ _ _ hargs hlacks
  obtain ⟨plain, checked, hplain, hchecked, -, hresult, -, -, hwarn, -⟩ :=
    hinsert ["render", "-t", "x"] ["-c", "/home/item.json", "-v"] rfl haccepted "".toUTF8 d
  obtain ⟨warning, hwarning, hlog⟩ := hwarn "x" hrenders hno
  exact ⟨hargs, hlacks, plain, checked, warning, hplain, hchecked, hresult, hwarning, hlog⟩

end BibTemplate.CommandLine

import BibTemplate.CommandLine.Run
import BibTemplate.Proofs.CommandLine.Directories

/-!
# The stages of a run that renders

A run that renders reads its template, parses it, reads its context, parses that, and puts
the text out. It ends at the first stage that fails, and until the last stage has gone well
nothing has been put out and no file has been touched. So the run may write over its own
template or context.
-/
namespace BibTemplate.CommandLine

/-- What a run puts out; a run that fails puts nothing out. -/
def Ending.output (e : Ending) : String :=
  match e.result with
  | .ok output => output
  | .error _ => ""

/-- The same ending but for the log. -/
def Ending.Like (e f : Ending) : Prop :=
  e.result = f.result ∧ e.directory = f.directory

theorem Ending.Like.trans {e f g : Ending} (h : e.Like f) (h' : f.Like g) : e.Like g :=
  ⟨h.1.trans h'.1, h.2.trans h'.2⟩

theorem Ending.of_error {e : Ending} {failure : Failure} (h : e.result = .error failure) :
    exitStatus (some e) = 1 ∧ e.output = "" := by
  obtain ⟨log, result, directory⟩ := e
  subst h
  exact ⟨rfl, rfl⟩

theorem Ending.of_ok {e : Ending} {text : String} (h : e.result = .ok text) :
    exitStatus (some e) = 0 ∧ e.output = text := by
  obtain ⟨log, result, directory⟩ := e
  subst h
  exact ⟨rfl, rfl⟩

variable {input : ByteArray} {d : Directory} {source : TemplateSource}
  {context output : Option String} {options : RenderOptions}

theorem fromUTF8?_toUTF8 (s : String) : String.fromUTF8? s.toUTF8 = some s := by
  simp only [String.fromUTF8?, String.toUTF8_eq_toByteArray, dif_pos s.isValidUTF8]
  rfl

/-- The text that a template source gives. -/
def TemplateSource.text? (d : Directory) : TemplateSource → Option String
  | .inline text => some text
  | .file path => (d.read? path).bind String.fromUTF8?

/-- The text of the context, from a file or from standard input. -/
def contextText? (input : ByteArray) (d : Directory) (path : Option String) : Option String :=
  (path.elim (some input) d.read?).bind String.fromUTF8?

/-- The template of a run. -/
def HasTemplate (d : Directory) (source : TemplateSource) (t : Template) : Prop :=
  ∃ text, source.text? d = some text ∧ Template.parse text = .ok t

/-- The context that a text gives: an object without members if all of it is blank, and else what
it says in JSON. -/
inductive IsContext (text : String) : Value → Prop
  | blank : text.toList.all Text.isBlank → IsContext text (.object [])
  | json {v : Value} : ¬ text.toList.all Text.isBlank → Json.read text = .ok v → IsContext text v

/-- The context of a run. -/
def HasContext (input : ByteArray) (d : Directory) (path : Option String) (v : Value) : Prop :=
  ∃ text, contextText? input d path = some text ∧ IsContext text v

/-- The text that a run has to put out. -/
def Renders (input : ByteArray) (d : Directory) (source : TemplateSource)
    (context : Option String) (options : RenderOptions) (text : String) : Prop :=
  ∃ t v, HasTemplate d source t ∧ HasContext input d context v ∧ t.render v options = text

/-- The first stage that fails, how, and the message for it. -/
inductive FirstFailure (input : ByteArray) (d : Directory) (source : TemplateSource)
    (context output : Option String) (options : RenderOptions) : Failure → String → Prop
  | templateFile {path : String} :
      source = .file path → source.text? d = none →
        FirstFailure input d source context output options (.templateFile path)
          ("Failed to read template file: " ++ path)
  | template {text : String} {e : SyntaxError} :
      source.text? d = some text → Template.parse text = .error e →
        FirstFailure input d source context output options (.renderTemplate e)
          "Failed to parse template"
  | contextFile {t : Template} {path : String} :
      HasTemplate d source t → context = some path → contextText? input d context = none →
        FirstFailure input d source context output options (.contextFile path)
          ("Failed to read file: " ++ path)
  | standardInput {t : Template} :
      HasTemplate d source t → context = none → contextText? input d context = none →
        FirstFailure input d source context output options .standardInput
          "Failed to read from stdin"
  | context {t : Template} {text : String} {fault : Json.Fault} :
      HasTemplate d source t → contextText? input d context = some text →
        ¬ text.toList.all Text.isBlank → Json.read text = .error fault →
        FirstFailure input d source context output options (.context fault)
          "Failed to parse context JSON"
  | outputFile {text path : String} :
      Renders input d source context options text → output = some path → ¬ d.Writable path →
        FirstFailure input d source context output options (.outputFile path)
          ("Failed to write file: " ++ path)

theorem FirstFailure.message_eq {failure : Failure} {message : String}
    (h : FirstFailure input d source context output options failure message) :
    failure.message = message := by
  cases h <;> rfl

namespace Dialogue

theorem contextOf_of_not_blank {text : String} (h : ¬ text.toList.all Text.isBlank) :
    contextOf text = Json.read text :=
  if_neg h

theorem contextOf_eq_ok_iff {text : String} {v : Value} :
    contextOf text = .ok v ↔ IsContext text v := by
  by_cases hblank : text.toList.all Text.isBlank
  · rw [contextOf, if_pos hblank, Except.ok.injEq]
    constructor
    · rintro rfl
      exact .blank hblank
    · rintro (_ | ⟨hnot, -⟩)
      · rfl
      · exact absurd hblank hnot
  · rw [contextOf_of_not_blank hblank]
    refine ⟨.json hblank, ?_⟩
    rintro (h | ⟨-, hread⟩)
    · exact absurd h hblank
    · exact hread

theorem contextOf_eq_error_iff {text : String} {fault : Json.Fault} :
    contextOf text = .error fault ↔
      ¬ text.toList.all Text.isBlank ∧ Json.read text = .error fault := by
  by_cases hblank : text.toList.all Text.isBlank
  · rw [contextOf, if_pos hblank]
    exact iff_of_false nofun fun h => h.1 hblank
  · rw [contextOf_of_not_blank hblank, and_iff_right hblank]

theorem hold_readTemplate {text : String} (h : source.text? d = some text)
    (next : String → Dialogue) :
    (readTemplate source next).hold input d = (next text).hold input d := by
  cases source with
  | inline t =>
    cases h
    rfl
  | file path =>
    rw [TemplateSource.text?] at h
    rw [readTemplate, hold, withText, h]

theorem hold_readContext {text : String} (h : contextText? input d context = some text)
    (next : String → Dialogue) :
    (readContext context next).hold input d = (next text).hold input d := by
  cases context with
  | none =>
    rw [contextText?, Option.elim_none] at h
    rw [readContext, hold, withText, h]
  | some path =>
    rw [contextText?, Option.elim_some] at h
    rw [readContext, hold, withText, h]

theorem hold_parseTemplate {text : String} {t : Template} (h : Template.parse text = .ok t)
    (failure : SyntaxError → Failure) (next : Template → Dialogue) :
    ((parseTemplate failure text next).hold input d).Like ((next t).hold input d) := by
  rw [parseTemplate, h]
  exact ⟨rfl, rfl⟩

theorem hold_output (t : Template) (v : Value) (options : RenderOptions) (path : Option String) :
    ((Dialogue.output t v options path).hold input d).Like
      ((writeOutput path (t.render v options)).hold input d) := by
  rw [Dialogue.output]
  split <;> exact ⟨rfl, rfl⟩

/-- With a template, a run goes on to read its context. -/
theorem hold_of_hasTemplate {t : Template} (h : HasTemplate d source t) :
    ((ofCommand (.render source context output options)).hold input d).Like
      ((readContext context fun json =>
        parseContext json fun v => Dialogue.output t v options output).hold input d) := by
  obtain ⟨text, htext, hparse⟩ := h
  rw [ofCommand, hold_readTemplate htext]
  exact hold_parseTemplate hparse _ _

/-- With a template and a context, a run comes to write its output. -/
theorem hold_of_renders {text : String} (h : Renders input d source context options text) :
    ((ofCommand (.render source context output options)).hold input d).Like
      ((writeOutput output text).hold input d) := by
  obtain ⟨t, v, htemplate, ⟨json, hjson, hv⟩, rfl⟩ := h
  refine (hold_of_hasTemplate htemplate).trans ?_
  rw [hold_readContext hjson, parseContext, contextOf_eq_ok_iff.2 hv]
  exact hold_output t v options output

theorem hold_of_firstFailure {failure : Failure} {message : String}
    (h : FirstFailure input d source context output options failure message) :
    ((ofCommand (.render source context output options)).hold input d).Like
      ⟨[], .error failure, d⟩ := by
  cases h with
  | templateFile hsource htext =>
    subst hsource
    rw [TemplateSource.text?] at htext
    rw [ofCommand, readTemplate, hold, withText, htext]
    exact ⟨rfl, rfl⟩
  | template htext hparse =>
    rw [ofCommand, hold_readTemplate htext, parseTemplate, hparse]
    exact ⟨rfl, rfl⟩
  | contextFile htemplate hcontext htext =>
    subst hcontext
    rw [contextText?, Option.elim_some] at htext
    refine (hold_of_hasTemplate htemplate).trans ?_
    rw [readContext, hold, withText, htext]
    exact ⟨rfl, rfl⟩
  | standardInput htemplate hcontext htext =>
    subst hcontext
    rw [contextText?, Option.elim_none] at htext
    refine (hold_of_hasTemplate htemplate).trans ?_
    rw [readContext, hold, withText, htext]
    exact ⟨rfl, rfl⟩
  | context htemplate htext hblank hfault =>
    refine (hold_of_hasTemplate htemplate).trans ?_
    rw [hold_readContext htext, parseContext, contextOf_of_not_blank hblank, hfault]
    exact ⟨rfl, rfl⟩
  | outputFile hrenders houtput hwritable =>
    subst houtput
    refine (hold_of_renders hrenders).trans ?_
    rw [writeOutput, hold, Directory.write?_eq_none hwritable]
    exact ⟨rfl, rfl⟩

end Dialogue

theorem HasTemplate.unique {t u : Template} (ht : HasTemplate d source t)
    (hu : HasTemplate d source u) : t = u := by
  obtain ⟨text, htext, hparse⟩ := ht
  obtain ⟨_, htext', hparse'⟩ := hu
  cases htext.symm.trans htext'
  cases hparse.symm.trans hparse'
  rfl

theorem IsContext.unique {text : String} {v w : Value} (hv : IsContext text v)
    (hw : IsContext text w) : v = w := by
  rw [← Dialogue.contextOf_eq_ok_iff] at hv hw
  exact Except.ok.inj (hv.symm.trans hw)

theorem HasContext.unique {v w : Value} (hv : HasContext input d context v)
    (hw : HasContext input d context w) : v = w := by
  obtain ⟨text, htext, hread⟩ := hv
  obtain ⟨_, htext', hread'⟩ := hw
  cases htext.symm.trans htext'
  exact hread.unique hread'

theorem Renders.unique {text other : String}
    (h : Renders input d source context options text)
    (h' : Renders input d source context options other) : text = other := by
  obtain ⟨t, v, ht, hv, rfl⟩ := h
  obtain ⟨u, w, hu, hw, rfl⟩ := h'
  rw [ht.unique hu, hv.unique hw]

/-- With a text to put out and a place to put it no stage fails. -/
theorem not_firstFailure {text : String} (h : Renders input d source context options text)
    (hwritable : ∀ path, output = some path → d.Writable path) (failure : Failure)
    (message : String) :
    ¬ FirstFailure input d source context output options failure message := by
  obtain ⟨t, v, ⟨_, htext, hparse⟩, ⟨json, hjson, hv⟩, -⟩ := h
  intro hfails
  cases hfails with
  | templateFile _ hnone => cases htext.symm.trans hnone
  | template htext' he =>
    cases htext.symm.trans htext'
    cases hparse.symm.trans he
  | contextFile _ _ hnone => cases hjson.symm.trans hnone
  | standardInput _ _ hnone => cases hjson.symm.trans hnone
  | context _ hjson' hblank hfault =>
    cases hjson.symm.trans hjson'
    cases hv with
    | blank hall => exact hblank hall
    | json _ hread => cases hread.symm.trans hfault
  | outputFile _ hpath hnot => exact hnot (hwritable _ hpath)

/-- When no stage fails there is a text to put out, and it can be put out. -/
theorem exists_renders
    (h : ∀ failure message,
      ¬ FirstFailure input d source context output options failure message) :
    ∃ text, Renders input d source context options text ∧
      ∀ path, output = some path → d.Writable path := by
  have htext : ∃ text, source.text? d = some text := by
    refine Option.ne_none_iff_exists'.1 ?_
    intro hnone
    cases source with
    | inline text => cases hnone
    | file path => exact h _ _ (.templateFile rfl hnone)
  obtain ⟨text, htext⟩ := htext
  cases hparse : Template.parse text with
  | error e => exact absurd (.template htext hparse) (h _ _)
  | ok t =>
    have htemplate : HasTemplate d source t := ⟨text, htext, hparse⟩
    have hjson : ∃ json, contextText? input d context = some json := by
      refine Option.ne_none_iff_exists'.1 ?_
      intro hnone
      cases hcontext : context with
      | none => exact h _ _ (.standardInput htemplate hcontext hnone)
      | some path => exact h _ _ (.contextFile htemplate hcontext hnone)
    obtain ⟨json, hjson⟩ := hjson
    cases hv : Dialogue.contextOf json with
    | error fault =>
      obtain ⟨hblank, hread⟩ := Dialogue.contextOf_eq_error_iff.1 hv
      exact absurd (.context htemplate hjson hblank hread) (h _ _)
    | ok v =>
      have hrenders : Renders input d source context options (t.render v options) :=
        ⟨t, v, htemplate, ⟨json, hjson, Dialogue.contextOf_eq_ok_iff.1 hv⟩, rfl⟩
      refine ⟨_, hrenders, fun path hpath => ?_⟩
      by_contra hwritable
      exact h _ _ (.outputFile hrenders hpath hwritable)

/-- A run is the dialogue of its command, with less of the log. -/
theorem exists_run? {args : List String} {verbose : Bool} {command : Command}
    (h : Request.ofArguments? args = some (.run verbose command)) (input : ByteArray)
    (d : Directory) :
    ∃ ending, run? args input d = some ending ∧
      ending.Like ((Dialogue.ofCommand command).hold input d) := by
  rw [run?, h]
  exact ⟨_, rfl, rfl, rfl⟩

/-- A run that renders either fails at its first stage that fails, with the message for it, puts
nothing out and leaves every file as it is, or succeeds and puts its whole text out, to standard
output without touching a file or to one file and nowhere else. The text is that of the files
before the run. -/
theorem run_render_all_or_nothing {args : List String} {verbose : Bool}
    (h : Request.ofArguments? args = some (.run verbose (.render source context output options)))
    (input : ByteArray) (d : Directory) :
    ∃ ending, run? args input d = some ending ∧
      (∀ failure message, FirstFailure input d source context output options failure message →
        exitStatus (some ending) = 1 ∧ ending.result = .error failure ∧
          failure.message = message ∧ ending.output = "" ∧ ending.directory = d) ∧
      ((∀ failure message,
          ¬ FirstFailure input d source context output options failure message) →
        ∃ text, Renders input d source context options text ∧ exitStatus (some ending) = 0 ∧
          (output = none → ending.output = text ∧ ending.directory = d) ∧
          ∀ path, output = some path →
            ending.output = "" ∧ d.Differs ending.directory path text.toUTF8) := by
  obtain ⟨ending, hrun, hlike⟩ := exists_run? h input d
  refine ⟨ending, hrun, ?_, ?_⟩
  · intro failure message hfailure
    obtain ⟨hresult, hdirectory⟩ := hlike.trans (Dialogue.hold_of_firstFailure hfailure)
    obtain ⟨hstatus, houtput⟩ := Ending.of_error hresult
    exact ⟨hstatus, hresult, hfailure.message_eq, houtput, hdirectory⟩
  · intro hnone
    obtain ⟨text, hrenders, hwritable⟩ := exists_renders hnone
    have hend := hlike.trans (Dialogue.hold_of_renders hrenders)
    refine ⟨text, hrenders, ?_⟩
    cases houtput : output with
    | none =>
      rw [houtput] at hend
      obtain ⟨hresult, hdirectory⟩ := hend
      obtain ⟨hstatus, htext⟩ := Ending.of_ok hresult
      exact ⟨hstatus, fun _ => ⟨htext, hdirectory⟩, fun path hpath => nomatch hpath⟩
    | some path =>
      obtain ⟨e, he, hdiffers⟩ := Directory.exists_write? (hwritable path houtput) text.toUTF8
      rw [houtput, Dialogue.writeOutput, Dialogue.hold, he] at hend
      obtain ⟨hresult, hdirectory⟩ := hend
      obtain ⟨hstatus, htext⟩ := Ending.of_ok hresult
      refine ⟨hstatus, (fun hnone => nomatch hnone), ?_⟩
      intro other hother
      cases hother
      exact ⟨htext, hdirectory ▸ hdiffers⟩

/-- Two runs with paths from the root and through the directory above: the first writes the text
over its own template, the second finds no context. -/
theorem run_render_in_place :
    let d := Directory.ofFiles ["home"] [(["key"], "a!".toUTF8), (["note"], "b".toUTF8)]
    let args := ["render", "-f", "/home/key", "--citekey", "-o", "../home/./key"]
    let lost := ["render", "-t", "x", "-c", "../key"]
    Request.ofArguments? args = some (.run false (.render (.file "/home/key") none
        (some "../home/./key") .forCitekey)) ∧
      (∃ ending, run? args "".toUTF8 d = some ending ∧ exitStatus (some ending) = 0 ∧
        ending.output = "" ∧ ending.directory.read? "key" = some "a".toUTF8 ∧
        ending.directory.read? "note" = some "b".toUTF8) ∧
      Request.ofArguments? lost = some (.run false (.render (.inline "x") (some "../key") none {})) ∧
      ∃ ending, run? lost "".toUTF8 d = some ending ∧ exitStatus (some ending) = 1 ∧
        ending.result = .error (.contextFile "../key") ∧
        (Failure.contextFile "../key").message = "Failed to read file: ../key" := by
  intro d args lost
  have hargs : Request.ofArguments? args = some (.run false (.render (.file "/home/key") none
      (some "../home/./key") .forCitekey)) := by
    rfl
  have hlost : Request.ofArguments? lost =
      some (.run false (.render (.inline "x") (some "../key") none {})) := by
    rfl
  have hparse : Template.parse "a!" = .ok ⟨[.literal "a!"]⟩ :=
    Template.parse_of_no_tag rfl (by decide)
  have hparse' : Template.parse "x" = .ok ⟨[.literal "x"]⟩ :=
    Template.parse_of_no_tag rfl (by decide)
  have hrender : Template.render ⟨[.literal "a!"]⟩ (.object []) .forCitekey = "a" := by
    simp only [Template.render, Node.walkAll, Node.walk, Walk.emit, String.empty_append]
    decide
  have hrenders : Renders "".toUTF8 d (.file "/home/key") none .forCitekey "a" :=
    ⟨_, _, ⟨"a!", fromUTF8?_toUTF8 "a!", hparse⟩, ⟨"", fromUTF8?_toUTF8 "", .blank rfl⟩, hrender⟩
  have hwritable : ∀ path, some "../home/./key" = some path → d.Writable path := by
    rintro path ⟨⟩
    exact ⟨["home", "key"], rfl, by decide⟩
  have hfails : FirstFailure "".toUTF8 d (.inline "x") (some "../key") none {}
      (.contextFile "../key") ("Failed to read file: " ++ "../key") :=
    .contextFile ⟨"x", rfl, hparse'⟩ rfl rfl
  obtain ⟨ending, hrun, -, hok⟩ := run_render_all_or_nothing hargs "".toUTF8 d
  obtain ⟨text, hshown, hstatus, -, hfile⟩ := hok (not_firstFailure hrenders hwritable)
  cases hshown.unique hrenders
  obtain ⟨houtput, hdiffers⟩ := hfile _ rfl
  obtain ⟨stopped, hstopped, hfailed, -⟩ := run_render_all_or_nothing hlost "".toUTF8 d
  obtain ⟨hstatus', hresult, hmessage, -, -⟩ := hfailed _ _ hfails
  refine ⟨hargs, ⟨ending, hrun, hstatus, houtput, ?_, ?_⟩, hlost, stopped, hstopped, hstatus',
    hresult, hmessage⟩
  · exact hdiffers.read?_of_locate? rfl
  · exact hdiffers.read?_eq (by decide)

end BibTemplate.CommandLine

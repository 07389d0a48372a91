import BibTemplate.Proofs.Cache.Histories
import BibTemplate.Proofs.CommandLine.Flags
import BibTemplate.Proofs.CommandLine.Stages
import BibTemplate.Proofs.Text.Trimming

/-!
# All ways to render agree

A template is rendered against a context in JSON directly, through a cache, in a preview or
by a command. All report a defect of the template first, then one of the context, and give
the same text else. Only a command takes a blank context, which no JSON text is, for an
object without members.
-/
namespace BibTemplate

namespace Json

theorem begin_of_isBlank {rules : Rules} {frames : List Frame} {c : Char}
    (h : Text.isBlank c = true) : Reader.begin rules frames c = none := by
  have hne : ∀ d, Text.isBlank d = false → c ≠ d := by
    rintro d hd rfl
    rw [hd] at h
    cases h
  have hdigit : c.isDigit = false := by
    rw [← Bool.not_eq_true]
    intro hd
    have halpha : c.isAlphanum := by simp [Char.isAlphanum, hd]
    rw [Text.isBlank_of_isAlphanum halpha] at h
    cases h
  have hnumeral : Numeral.start? c = none := by
    simp [Numeral.start?, hne '-' rfl, hne '0' rfl, hdigit]
  have hscalar : Scalar.start? c = none := by
    unfold Scalar.start?
    split
    · exact absurd rfl (hne 'n' rfl)
    · exact absurd rfl (hne 't' rfl)
    · exact absurd rfl (hne 'f' rfl)
    · exact absurd rfl (hne '"' rfl)
    · rw [hnumeral, Option.map_none]
  simp [Reader.begin, hne '[' rfl, hne '\x7b' rfl, hscalar]

/-- Blank characters leave the reader where it starts, unless one of them is refused. -/
theorem foldlM_of_blank {s : List Char} (h : s.all Text.isBlank) :
    s.foldlM Document.step .start = none ∨ s.foldlM Document.step .start = some .start := by
  induction s with
  | nil => exact .inr rfl
  | cons c s ih =>
    rw [List.all_cons, Bool.and_eq_true] at h
    have hstep : Document.start.step c = if isSpace c then some .start else none := by
      by_cases hs : isSpace c <;>
        simp [Document.step, Document.start, Reader.start, Reader.step, begin_of_isBlank h.1, hs]
    rw [List.foldlM_cons, hstep]
    split
    · exact ih h.2
    · exact .inl rfl

theorem exists_fault_of_blank {s : String} (h : s.toList.all Text.isBlank) :
    ∃ fault, read s = .error fault := by
  rw [read, readChars]
  rcases foldlM_of_blank h with hnone | hstart
  · exact ⟨_, by rw [hnone]⟩
  · exact ⟨_, by rw [hstart]; rfl⟩

end Json

namespace CommandLine

/-- The arguments are those of a command that renders, and give these texts and options. -/
def Supplies (args : List String) (input : ByteArray) (d : Directory) (source context : String)
    (options : RenderOptions) (output : Option String) : Prop :=
  ∃ verbose template path,
    Request.ofArguments? args = some (.run verbose (.render template path output options)) ∧
      template.text? d = some source ∧ contextText? input d path = some context

/-- A run that renders ends with a result of rendering: with the defect of the template or of
the context, or by putting the text out as far as the file for it can be written. -/
def Ending.Reports (ending : Ending) (d : Directory) (output : Option String) :
    Except RenderError String → Prop
  | .error (.template e) => ending.result = .error (.renderTemplate e)
  | .error (.context fault) => ending.result = .error (.context fault)
  | .ok text =>
    match output with
    | none => ending.result = .ok text
    | some path =>
      (d.Writable path → ending.result = .ok "" ∧ d.Differs ending.directory path text.toUTF8) ∧
        (¬ d.Writable path → ending.result = .error (.outputFile path))

/-- What a command makes of a context in JSON. -/
def renderGiven (source context : String) (options : RenderOptions) : Except RenderError String :=
  if context.toList.all Text.isBlank then
    (render source (.object []) options).mapError .template
  else renderJson source context options

variable {args : List String} {input : ByteArray} {d : Directory} {source context : String}
  {options : RenderOptions} {output : Option String}

theorem renderGiven_eq_error {e : SyntaxError} (h : Template.parse source = .error e)
    (context : String) (options : RenderOptions) :
    renderGiven source context options = .error (.template e) := by
  rw [renderGiven, render, renderJson, h]
  split <;> rfl

theorem renderGiven_eq_of_parse {t : Template} (h : Template.parse source = .ok t)
    (context : String) (options : RenderOptions) :
    renderGiven source context options =
      match Dialogue.contextOf context with
      | .error fault => .error (.context fault)
      | .ok v => .ok (t.render v options) := by
  rw [renderGiven, render, renderJson, h, Dialogue.contextOf]
  split <;> rfl

theorem Supplies.options_iff (h : Supplies args input d source context options output) :
    (options.sanitizeForCitekey ↔ "--citekey" ∈ args) ∧
      (options.yamlArray ↔ "--yaml-array" ∈ args) := by
  obtain ⟨verbose, template, path, hargs, -, -⟩ := h
  exact options_iff_mem hargs

theorem Supplies.exists_run? (h : Supplies args input d source context options output) :
    ∃ ending, run? args input d = some ending ∧
      ending.Reports d output (renderGiven source context options) := by
  obtain ⟨verbose, template, path, hargs, hsource, hcontext⟩ := h
  obtain ⟨ending, hrun, hlike⟩ := CommandLine.exists_run? hargs input d
  refine ⟨ending, hrun, ?_⟩
  cases hparse : Template.parse source with
  | error e =>
    rw [renderGiven_eq_error hparse]
    exact (hlike.trans (Dialogue.hold_of_firstFailure (.template hsource hparse))).1
  | ok t =>
    have htemplate : HasTemplate d template t := ⟨source, hsource, hparse⟩
    rw [renderGiven_eq_of_parse hparse]
    cases hv : Dialogue.contextOf context with
    | error fault =>
      obtain ⟨hblank, hread⟩ := Dialogue.contextOf_eq_error_iff.1 hv
      have hfails : FirstFailure input d template path output options (.context fault) _ :=
        .context htemplate hcontext hblank hread
      exact (hlike.trans (Dialogue.hold_of_firstFailure hfails)).1
    | ok v =>
      have hrenders : Renders input d template path options (t.render v options) :=
        ⟨t, v, htemplate, ⟨context, hcontext, Dialogue.contextOf_eq_ok_iff.1 hv⟩, rfl⟩
      cases output with
      | none => exact (hlike.trans (Dialogue.hold_of_renders hrenders)).1
      | some file =>
        refine ⟨fun hwritable => ?_, fun hnot => ?_⟩
        · obtain ⟨e, he, hdiffers⟩ := Directory.exists_write? hwritable (t.render v options).toUTF8
          have hend := hlike.trans (Dialogue.hold_of_renders hrenders)
          rw [Dialogue.writeOutput, Dialogue.hold, he] at hend
          exact ⟨hend.1, hend.2 ▸ hdiffers⟩
        · have hfails := FirstFailure.outputFile hrenders rfl hnot
          exact (hlike.trans (Dialogue.hold_of_firstFailure hfails)).1

end CommandLine

/-- What rendering a template against a context in JSON comes to. -/
inductive Outcome (source context : String) (options : RenderOptions) :
    Except RenderError String → Prop
  | template {e : SyntaxError} :
      Template.parse source = .error e → Outcome source context options (.error (.template e))
  | context {t : Template} {fault : Json.Fault} :
      Template.parse source = .ok t → Json.read context = .error fault →
        Outcome source context options (.error (.context fault))
  | text {t : Template} {v : Value} :
      Template.parse source = .ok t → Json.read context = .ok v →
        Outcome source context options (.ok (t.render v options))

theorem outcome_renderJson (source context : String) (options : RenderOptions) :
    Outcome source context options (renderJson source context options) := by
  rw [renderJson]
  cases hparse : Template.parse source with
  | error e => exact .template hparse
  | ok t =>
    cases hread : Json.read context with
    | error fault => exact .context hparse hread
    | ok v => exact .text hparse hread

theorem mapError_render {context : String} {v : Value} (h : Json.read context = .ok v)
    (source : String) (options : RenderOptions) :
    (render source v options).mapError .template = renderJson source context options := by
  rw [render, renderJson, h]
  cases Template.parse source <;> rfl

/-- A template, a context in JSON and options have one outcome, however the template is
rendered and whatever came before. A blank context is no JSON text, but a command renders
against an object without members then. -/
theorem entry_points_agree (source context : String) (options : RenderOptions) :
    ∃ outcome, Outcome source context options outcome ∧
      renderJson source context options = outcome ∧
      (∀ v, Json.read context = .ok v →
        (render source v options).mapError .template = outcome) ∧
      (∀ capacity c h d v, Cache.Fresh capacity c → Cache.Run c h d → Json.read context = .ok v →
        (d.render source v options).1.mapError .template = outcome) ∧
      (∀ p, Preview.Reached p → (p.render source context options).1 = outcome) ∧
      (∀ args input d output,
        CommandLine.Supplies args input d source context options output →
          (options.sanitizeForCitekey ↔ "--citekey" ∈ args) ∧
          (options.yamlArray ↔ "--yaml-array" ∈ args) ∧
          ∃ ending, CommandLine.run? args input d = some ending ∧
            (¬ context.toList.all Text.isBlank → ending.Reports d output outcome) ∧
            (context.toList.all Text.isBlank → ending.Reports d output
              ((render source (.object []) options).mapError .template))) ∧
      (context.toList.all Text.isBlank → ∃ fault, Json.read context = .error fault) := by
  refine ⟨_, outcome_renderJson source context options, rfl, ?direct, ?cache, ?preview, ?command,
    Json.exists_fault_of_blank⟩
  case direct => exact fun v hv => mapError_render hv source options
  case cache =>
    intro capacity c h d v hc hrun hv
    rw [Cache.render_eq (hrun.sound hc.sound), mapError_render hv]
  case preview => exact fun p hp => Preview.render_eq hp.sound source context options
  case command =>
    intro args input d output h
    obtain ⟨hcitekey, hyaml⟩ := h.options_iff
    obtain ⟨ending, hrun, hreports⟩ := h.exists_run?
    refine ⟨hcitekey, hyaml, ending, hrun, ?_, ?_⟩
    · intro hblank
      rwa [CommandLine.renderGiven, if_neg hblank] at hreports
    · intro hblank
      rwa [CommandLine.renderGiven, if_pos hblank] at hreports

/-- A template with one letter, in a cache that has lost it again, in a preview after another
text, and by a command that finds its context from the root. -/
theorem entry_points_agree_letter :
    let c : Cache := .bounded 1
    let used := ((c.fetch "a").2.fetch "b").2
    let p := (Preview.start.render "b" "1" {}).2
    let d := CommandLine.Directory.ofFiles ["home"] [(["c.json"], "[]".toUTF8)]
    let args := ["render", "-t", "a", "-c", "/home/c.json"]
    Template.parse "a" = .ok ⟨[.literal "a"]⟩ ∧ Json.read "[]" = .ok (.list []) ∧
      (used.render "a" (.list []) {}).1 = .ok "a" ∧ (p.render "a" "[]" {}).1 = .ok "a" ∧
      ∃ ending, CommandLine.run? args "".toUTF8 d = some ending ∧ ending.result = .ok "a" := by
  intro c used p d args
  have hparse : Template.parse "a" = .ok ⟨[.literal "a"]⟩ :=
    Template.parse_of_no_tag rfl (by decide)
  have hread : Json.read "[]" = .ok (.list []) := rfl
  obtain ⟨outcome, houtcome, -, -, hcache, hpreview, hcommand, -⟩ :=
    entry_points_agree "a" "[]" {}
  obtain rfl : outcome = .ok "a" := by
    cases houtcome with
    | template he => cases hparse.symm.trans he
    | context _ hfault => cases hread.symm.trans hfault
    | text ht hv =>
      cases hparse.symm.trans ht
      cases hread.symm.trans hv
      rfl
  have hrefl : ∀ c : Cache, c.Reordered c := fun c => ⟨_, .refl _, rfl⟩
  have hused : Cache.Run c [(.fetch "a", _), (.fetch "b", _)] used :=
    .call (hrefl _) (.call (hrefl _) (.done (hrefl _)))
  have hsupplies : CommandLine.Supplies args "".toUTF8 d "a" "[]" {} none :=
    ⟨false, .inline "a", some "/home/c.json", rfl, rfl, CommandLine.fromUTF8?_toUTF8 "[]"⟩
  have hcached := hcache _ c _ used _ (.bounded 1) hused hread
  obtain ⟨-, -, ending, hrun, hreports, -⟩ := hcommand args _ d none hsupplies
  refine ⟨hparse, hread, ?_, hpreview p (.render "b" "1" {} .start), ending, hrun,
    hreports (by decide)⟩
  cases hresult : (used.render "a" (.list []) {}).1 with
  | error e =>
    rw [hresult] at hcached
    cases hcached
  | ok text =>
    rw [hresult] at hcached
    cases hcached
    rfl

end BibTemplate

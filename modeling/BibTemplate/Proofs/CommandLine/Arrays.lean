import BibTemplate.Proofs.CommandLine.Modes
import BibTemplate.Proofs.Json.RoundTrip
import BibTemplate.Proofs.Render.Separators
import BibTemplate.Proofs.Render.Verbatim

/-!
# A template of an array

A template can write an array in JSON by itself: brackets around a section, and in its body a
comma unless the element is the first, and the element between quotes. Nothing is escaped on
the way. So the text is the array of the elements if they are strings in which nothing would
have to be escaped, and then a run that is told to expect an array has nothing to warn of.
-/
namespace BibTemplate

variable {xs : List String} {ms : Value.Members}

/-- Brackets around the elements of `tags`, which stand between quotes and are separated:
`[{{#tags}}{{^@first}}, {{/@first}}"{{.}}"{{/tags}}]`. -/
def arrayTemplate : String :=
  "[\x7b\x7b#tags\x7d\x7d\x7b\x7b^@first\x7d\x7d, \x7b\x7b/@first\x7d\x7d" ++
    "\"\x7b\x7b.\x7d\x7d\"\x7b\x7b/tags\x7d\x7d]"

/-- Texts between quotes, with a comma and a space between them and brackets around them. -/
def bracketed (xs : List String) : String :=
  "[" ++ ", ".intercalate (xs.map fun x => "\"" ++ x ++ "\"") ++ "]"

theorem parse_arrayTemplate :
    Template.parse arrayTemplate = .ok ⟨[.literal "[",
      .block "tags" false (.block "@first" true [.literal ", "] ::
        [.literal "\"", .placeholder "." [], .literal "\""]),
      .literal "]"]⟩ := by
  rw [Template.parse,
    Segments.ofChars_of_some (t := ⟨['['], "#tags".toList, arrayTemplate.toList.drop 10⟩)
      (by decide),
    Segments.ofChars_of_some (t := ⟨[], "^@first".toList, arrayTemplate.toList.drop 21⟩)
      (by decide),
    Segments.ofChars_of_some (t := ⟨[',', ' '], "/@first".toList, arrayTemplate.toList.drop 34⟩)
      (by decide),
    Segments.ofChars_of_some (t := ⟨['"'], ['.'], arrayTemplate.toList.drop 40⟩) (by decide),
    Segments.ofChars_of_some (t := ⟨['"'], "/tags".toList, [']']⟩) (by decide),
    Segments.ofChars_of_none (by decide)]
  rfl

theorem Scopes.resolve?_ofRoot_object {key : String} (hkey : '.' ∉ key.toList) :
    (ofRoot (.object ms)).resolve? key = ms.get? key := by
  have hne : key ≠ "." := by
    rintro rfl
    exact hkey (by decide)
  rw [resolve?_eq _ hne, firstSegment_of_not_mem hkey, allSegments_of_not_mem hkey]
  simp [lookup?, toList, ofRoot, Scope.lookup?]

/-- What stands around the element stands around it in each round. -/
theorem Walk.rounds_quoted (w : Walk) (items : List Value) :
    w.rounds [.literal "\"", .placeholder "." [], .literal "\""] items =
      items.map fun v => "\"" ++ v.text ++ "\"" := by
  refine rounds_eq_map (fun s => ?_) w items
  simp [Node.evalAll, Node.eval, Scopes.textAt, Filter.applyAll_nil, String.append_assoc]

theorem render_arrayTemplate (htags : ms.get? "tags" = some (.list (xs.map .string)))
    (yaml : Bool) : render arrayTemplate (.object ms) ⟨false, yaml⟩ = .ok (bracketed xs) := by
  have hlist : (Scopes.ofRoot (.object ms)).resolve? "tags" = some (.list (xs.map .string)) :=
    (Scopes.resolve?_ofRoot_object (by decide)).trans htags
  have hsection := Node.walkAll_separator_before ⟨.ofRoot (.object ms), "["⟩ hlist
    [.literal "\"", .placeholder "." [], .literal "\""] ", "
  rw [Walk.rounds_quoted] at hsection
  have htext := congrArg (fun w : Walk => w.output ++ "]") hsection
  rw [render, parse_arrayTemplate]
  refine (congrArg Except.ok htext).trans ?_
  simp [Walk.emit, bracketed, Function.comp_def, Value.text]

/-- A text in which nothing has to be escaped: it has no quote, no backslash and no character below
U+0020. -/
def Json.Plain (s : String) : Prop :=
  ∀ c ∈ s.toList, c ≠ '"' ∧ c ≠ '\\' ∧ 0x20 ≤ c.toNat

/-- A character that is no quote, no backslash and not below U+0020 stands for itself. -/
theorem Json.escape_eq_singleton {c : Char} (hquote : c ≠ '"') (hbackslash : c ≠ '\\')
    (hcode : 0x20 ≤ c.toNat) : escape c = [c] := by
  have hne : ∀ d : Char, d.toNat < 0x20 → c ≠ d := by
    rintro d hd rfl
    omega
  simp [escape, hquote, hbackslash, hne '\x08' (by decide), hne '\t' (by decide),
    hne '\n' (by decide), hne '\x0c' (by decide), hne '\r' (by decide), Nat.not_lt.2 hcode]

theorem Json.Plain.quote_eq {s : String} (h : Plain s) :
    quote s.toList = '"' :: (s.toList ++ ['"']) := by
  have hsame : s.toList.flatMap escape = s.toList.flatMap ([·]) :=
    List.flatMap_congr fun c hc => escape_eq_singleton (h c hc).1 (h c hc).2.1 (h c hc).2.2
  rw [quote, hsame, List.flatMap_singleton']

theorem Json.toList_bracketed (hxs : ∀ x ∈ xs, Plain x) :
    (bracketed xs).toList =
      '[' :: ([',', ' '].intercalate (xs.map fun x => quote x.toList) ++ [']']) := by
  have hquote : ∀ x ∈ xs, ("\"" ++ x ++ "\"").toList = quote x.toList := by
    intro x hx
    rw [(hxs x hx).quote_eq, String.toList_append, String.toList_append]
    rfl
  rw [bracketed, String.toList_append, String.toList_append, String.toList_intercalate,
    List.map_map, Function.comp_def, List.map_congr_left hquote]
  rfl

/-- The space after a comma is passed over, and each text between quotes is read as a string. -/
theorem Json.read_bracketed (hxs : ∀ x ∈ xs, Plain x) :
    read (bracketed xs) = .ok (.list (xs.map .string)) := by
  rw [read, toList_bracketed hxs]
  have hgap : ∀ c ∈ [' '], isSpace c := List.forall_mem_singleton.2 rfl
  refine (Document.delivers_items hgap (by decide) ?_ fun x _ before =>
    Document.delivers_quote _ x).readChars_eq
  exact fun x _ => ⟨_, _, rfl, rfl, by decide⟩

namespace CommandLine

/-- A run that comes to the text of an array and is told to expect one says how long it is, and
warns of nothing. -/
theorem run?_of_array {args : List String} {verbose citekey : Bool} {source : TemplateSource}
    {context output : Option String} {input : ByteArray} {d : Directory} {text : String}
    {items : List Value}
    (hargs : Request.ofArguments? args =
      some (.run verbose (.render source context output ⟨citekey, true⟩)))
    (htext : Renders input d source context ⟨citekey, true⟩ text)
    (hread : Json.read text = .ok (.list items)) :
    ∃ ending, run? args input d = some ending ∧ (∀ e ∈ ending.log, e.isWarning = false) ∧
      (verbose → ending.log.getLast? = some (.arrayOutput items.length)) := by
  obtain ⟨parsed, hparsed, hlog⟩ := Dialogue.log_hold_of_renders output htext
  rw [Dialogue.checkArray_of_list hread] at hlog
  refine ⟨_, run?_eq hargs input d, ?_, ?_⟩
  · intro e he
    have hmem := List.mem_of_mem_filter he
    rw [hlog] at hmem
    simp only [if_true, List.mem_cons, List.not_mem_nil, or_false] at hmem
    rcases hmem with rfl | rfl | rfl
    · exact hparsed.isWarning_eq
    · rfl
    · rfl
  · rintro rfl
    dsimp only
    rw [hlog]
    simp [LogEvent.shown]

/-- A context may come from standard input. -/
theorem hasContext_toUTF8 {text : String} {v : Value} (h : IsContext text v)
    (d : Directory) : HasContext text.toUTF8 d none v := by
  refine ⟨text, ?_, h⟩
  rw [contextText?, Option.elim_none, Option.bind_some, fromUTF8?_toUTF8]

/-- The template of an array gives the array: its text is read as the list of the elements, with
no element as well, if they are strings without a quote, a backslash or a character below U+0020.
So a run that renders it and expects an array finds one of the length of the list. -/
theorem arrayTemplate_gives_array {xs : List String} {ms : Value.Members}
    (hxs : ∀ x ∈ xs, Json.Plain x) (htags : ms.get? "tags" = some (.list (xs.map .string))) :
    (∀ yaml, ∃ text, render arrayTemplate (.object ms) ⟨false, yaml⟩ = .ok text ∧
      Json.read text = .ok (.list (xs.map .string)) ∧
      Dialogue.checkArray text = .arrayOutput xs.length) ∧
    ∀ args verbose source context output input d,
      Request.ofArguments? args =
        some (.run verbose (.render source context output ⟨false, true⟩)) →
      source.text? d = some arrayTemplate → HasContext input d context (.object ms) →
        ∃ ending, run? args input d = some ending ∧ (∀ e ∈ ending.log, e.isWarning = false) ∧
          (verbose → ending.log.getLast? = some (.arrayOutput xs.length)) := by
  have hread := Json.read_bracketed hxs
  have hlength : (xs.map Value.string).length = xs.length := List.length_map _
  refine ⟨?_, ?_⟩
  · intro yaml
    refine ⟨_, render_arrayTemplate htags yaml, hread, ?_⟩
    rw [Dialogue.checkArray_of_list hread, hlength]
  · intro args verbose source context output input d hargs hsource hcontext
    have hrender := render_arrayTemplate htags true
    rw [render, parse_arrayTemplate, Except.map, Except.ok.injEq] at hrender
    have hrenders : Renders input d source context ⟨false, true⟩ (bracketed xs) :=
      ⟨_, _, ⟨_, hsource, parse_arrayTemplate⟩, hcontext, hrender⟩
    rw [← hlength]
    exact run?_of_array hargs hrenders hread

/-- Two tags, one of them with a comma and a bracket in it, and a run that reads them. -/
theorem arrayTemplate_gives_array_two :
    let xs := ["a, b]", "é"]
    let ms : Value.Members := [("title", .null), ("tags", .list (xs.map .string))]
    let args := ["-v", "render", "--yaml-array", "-t", arrayTemplate]
    (∀ x ∈ xs, Json.Plain x) ∧
      ms.get? "tags" = some (.list (xs.map .string)) ∧
      (∃ text, render arrayTemplate (.object ms) ⟨false, false⟩ = .ok text ∧
        Json.read text = .ok (.list (xs.map .string))) ∧
      ∃ ending, run? args "\x7b\"title\": null, \"tags\": [\"a, b]\", \"é\"]\x7d".toUTF8 .empty =
          some ending ∧
        (∀ e ∈ ending.log, e.isWarning = false) ∧
        ending.log.getLast? = some (.arrayOutput 2) := by
  intro xs ms args
  have hxs : ∀ x ∈ xs, Json.Plain x := by simp [xs, Json.Plain]
  have htags : ms.get? "tags" = some (.list (xs.map .string)) := rfl
  have hargs : Request.ofArguments? args =
      some (.run true (.render (.inline arrayTemplate) none none ⟨false, true⟩)) := rfl
  have hjson : IsContext "\x7b\"title\": null, \"tags\": [\"a, b]\", \"é\"]\x7d" (.object ms) :=
    .json (by decide) rfl
  obtain ⟨htext, hrun⟩ := arrayTemplate_gives_array hxs htags
  obtain ⟨text, hrender, hread, -⟩ := htext false
  obtain ⟨ending, hending, hquiet, hlast⟩ :=
    hrun args true _ _ _ _ .empty hargs rfl (hasContext_toUTF8 hjson .empty)
  exact ⟨hxs, htags, ⟨text, hrender, hread⟩, ending, hending, hquiet, hlast rfl⟩

end CommandLine

end BibTemplate

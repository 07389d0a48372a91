import BibTemplate.Proofs.Json.Scalars
import BibTemplate.Proofs.Value.Documents
import BibTemplate.Render.Eval
import BibTemplate.Json.Reader

/-!
# Written documents read again

The reader takes the text of a value character by character, inside any frames in which
there is room for the value, and delivers the document of the value to the innermost frame.
A number is the one case in which the reader has the value before it has delivered it.
-/
namespace BibTemplate.Json

open Value (Members document documentItems documentMembers)

namespace Document

/-- The document right after a value that its own last character completes. -/
def delivered (frames : List Frame) (v : Value) : Document :=
  match frames with
  | [] => .complete v
  | f :: fs => .reading ⟨.after (f.add v), fs⟩

/-- The value has been read inside the frames, though perhaps the reader has still to see
what comes behind it. -/
def Holds (d : Document) (v : Value) : List Frame → Prop
  | [] => d.finish = .ok v
  | f :: fs => ∀ c ∈ [',', ']', '\x7d'], d.step c = (reading ⟨.after (f.add v), fs⟩).step c

/-- The characters are read as a value inside the frames. -/
def Delivers (frames : List Frame) (s : List Char) (v : Value) : Prop :=
  ∃ d, s.foldlM step (reading ⟨.value, frames⟩) = some d ∧ d.Holds v frames

/-- Inside no frames the value is the whole text. -/
theorem Delivers.readChars_eq {s : List Char} {v : Value} (h : Delivers [] s v) :
    readChars s = .ok v := by
  obtain ⟨d, hread, hfinish⟩ := h
  have hstart : s.foldlM step .start = some d := hread
  rw [readChars, hstart]
  exact hfinish

theorem holds_delivered (frames : List Frame) (v : Value) : (delivered frames v).Holds v frames := by
  cases frames with
  | nil => rfl
  | cons f fs => exact fun _ _ => rfl

theorem delivers_of_foldlM {frames : List Frame} {s : List Char} {v : Value}
    (h : s.foldlM step (reading ⟨.value, frames⟩) = some (delivered frames v)) :
    Delivers frames s v :=
  ⟨_, h, holds_delivered frames v⟩

theorem foldlM_cons {d e : Document} {c : Char} (h : d.step c = some e) (s : List Char) :
    (c :: s).foldlM step d = s.foldlM step e := by
  rw [List.foldlM_cons, h]
  rfl

theorem foldlM_append {d e : Document} {s : List Char} (h : s.foldlM step d = some e)
    (t : List Char) : (s ++ t).foldlM step d = t.foldlM step e := by
  rw [List.foldlM_append, h]
  rfl

/-- A scalar or a key is read in the same way wherever it stands. -/
theorem foldlM_of_reads {σ α : Type} {advance : σ → Char → Option (Progress σ α)} {q r : σ}
    {s : List Char} {place : σ → Document}
    (hplace : ∀ q c r, advance q c = some (.more r) → (place q).step c = some (place r))
    (h : Reads advance q s r) : s.foldlM step (place q) = some (place r) := by
  induction h with
  | nil => rfl
  | cons hc _ ih => rw [foldlM_cons (hplace _ _ _ hc), ih]

theorem delivers_quote (frames : List Frame) (s : String) :
    Delivers frames (quote s.toList) (.string s) := by
  have hplace : ∀ q c r, q.step .keeping c = some (.more r) →
      (reading ⟨.scalar (.quoted q), frames⟩).step c =
        some (reading ⟨.scalar (.quoted r), frames⟩) := by
    intro q c r h
    simp [step, Reader.step, Scalar.step, h]
  have hend : (reading ⟨.scalar (.quoted ⟨.plain, s.toList.reverse⟩), frames⟩).step '"' =
      some (delivered frames (.string s)) := by
    cases frames <;> simp [step, Reader.step, Scalar.step, Quoted.step_quote, Reader.deliver,
      delivered]
  refine delivers_of_foldlM ?_
  rw [quote, foldlM_cons (e := reading ⟨.scalar (.quoted .start), frames⟩) rfl,
    foldlM_append (foldlM_of_reads hplace (Quoted.reads_text s)), foldlM_cons hend]
  rfl

theorem step_of_start? {c : Char} {m : Numeral} (h : Numeral.start? c = some m)
    (frames : List Frame) :
    (reading ⟨.value, frames⟩).step c = some (reading ⟨.scalar (.numeral m), frames⟩) := by
  simp [step, Reader.step, Reader.begin, Numeral.isSpace_of_start? h,
    Numeral.ne_of_start? h (d := '[') rfl, Numeral.ne_of_start? h (d := '\x7b') rfl,
    Numeral.scalar_of_start? h]

theorem delivers_writeInteger (frames : List Frame) (n : Int64) :
    Delivers frames (writeInteger n) (.integer n) := by
  have hplace : ∀ m c k, Numeral.step m c = some (.more k) →
      (reading ⟨.scalar (.numeral m), frames⟩).step c =
        some (reading ⟨.scalar (.numeral k), frames⟩) := by
    intro m c k h
    simp [step, Reader.step, Scalar.step, h]
  obtain ⟨c, s, m, hwrite, hstart, hreads⟩ := Numeral.exists_start?_writeInteger n
  refine ⟨reading ⟨.scalar (.numeral (.ofInteger n)), frames⟩, ?_, ?_⟩
  · rw [hwrite, foldlM_cons (step_of_start? hstart frames), foldlM_of_reads hplace hreads]
  · have hvalue : Scalar.numeralValue? .keeping (.ofInteger n) = some (.integer n) :=
      Numeral.value?_ofInteger n
    cases frames with
    | nil =>
      simp [Holds, finish, Reader.finish, Scalar.finish, Numeral.complete_ofInteger, hvalue]
    | cons f fs =>
      intro c hc
      have hstep : (Numeral.ofInteger n).step c = some (.past (.ofInteger n)) := by
        simp only [List.mem_cons, List.not_mem_nil, or_false] at hc
        rcases hc with rfl | rfl | rfl <;>
          exact Numeral.step_ofInteger n (by decide) (by decide) (by decide) (by decide)
      simp [step, Reader.step, Scalar.step, hstep, hvalue]

theorem intercalate_cons {α : Type} (sep x : List α) (xs : List (List α)) :
    sep.intercalate (x :: xs) = x ++ xs.flatMap fun y => sep ++ y := by
  induction xs generalizing x with
  | nil => simp
  | cons y ys ih => simp [List.intercalate_cons_cons, ih]

/-- White space before a value is passed over. -/
theorem foldlM_gap {gap : List Char} (hgap : ∀ c ∈ gap, isSpace c) (frames : List Frame)
    (s : List Char) :
    (gap ++ s).foldlM step (reading ⟨.value, frames⟩) =
      s.foldlM step (reading ⟨.value, frames⟩) := by
  induction gap with
  | nil => rfl
  | cons c gap ih =>
    rw [List.forall_mem_cons] at hgap
    have hstep : (reading ⟨.value, frames⟩).step c = some (reading ⟨.value, frames⟩) := by
      simp [step, Reader.step, hgap.1]
    rw [List.cons_append, foldlM_cons hstep, ih hgap.2]

section Elements

variable {α : Type} {gap : List Char} {text : α → List Char} {value : α → Value}
  {frames : List Frame} {xs : List α}

/-- The elements of an array after the first, and its end. -/
theorem foldlM_items (hgap : ∀ c ∈ gap, isSpace c) {d : Document} {v : Value}
    {before : List Value} (hd : d.Holds v (.item before :: frames))
    (hxs : ∀ x ∈ xs, ∀ before, Delivers (.item before :: frames) (text x) (value x)) :
    ((xs.flatMap fun x => (',' :: gap) ++ text x) ++ [']']).foldlM step d =
      some (delivered frames (.list ((v :: before).reverse ++ xs.map value))) := by
  induction xs generalizing d v before with
  | nil =>
    have hend : d.step ']' = some (delivered frames (.list (v :: before).reverse)) := by
      rw [hd ']' (by decide)]
      cases frames <;> rfl
    rw [List.flatMap_nil, List.nil_append, foldlM_cons hend, List.map_nil, List.append_nil]
    rfl
  | cons x xs ih =>
    rw [List.forall_mem_cons] at hxs
    obtain ⟨e, hread, he⟩ := hxs.1 (v :: before)
    have hcomma : d.step ',' = some (reading ⟨.value, .item (v :: before) :: frames⟩) :=
      hd ',' (by decide)
    rw [List.flatMap_cons, List.append_assoc, List.append_assoc, List.cons_append,
      foldlM_cons hcomma, foldlM_gap hgap, foldlM_append hread, ih he hxs.2]
    simp

/-- An array whose elements have white space between the comma and their texts. -/
theorem delivers_items (hgap : ∀ c ∈ gap, isSpace c) (hroom : frames.length < 127)
    (hstart : ∀ x ∈ xs, ∃ c s, text x = c :: s ∧ isSpace c = false ∧ c ≠ ']')
    (hxs : ∀ x ∈ xs, ∀ before, Delivers (.item before :: frames) (text x) (value x)) :
    Delivers frames ('[' :: ((',' :: gap).intercalate (xs.map text) ++ [']']))
      (.list (xs.map value)) := by
  have hopen : (reading ⟨.value, frames⟩).step '[' = some (reading ⟨.firstItem, frames⟩) := by
    simp [step, Reader.step, Reader.begin, Reader.mayOpen, Rules.keeping, hroom, isSpace]
  refine delivers_of_foldlM ?_
  rw [foldlM_cons hopen]
  cases xs with
  | nil => cases frames <;> rfl
  | cons x xs =>
    rw [List.forall_mem_cons] at hstart hxs
    obtain ⟨c, s, htext, hspace, hc⟩ := hstart.1
    have hfirst : (reading ⟨.firstItem, frames⟩).step c =
        (reading ⟨.value, .item [] :: frames⟩).step c := by
      simp [step, Reader.step, hspace, hc]
    obtain ⟨d, hread, hd⟩ := hxs.1 []
    have hread' : (text x).foldlM step (reading ⟨.firstItem, frames⟩) = some d := by
      rw [htext] at hread ⊢
      rw [← hread, List.foldlM_cons, List.foldlM_cons, hfirst]
    rw [List.map_cons, intercalate_cons, List.append_assoc, foldlM_append hread',
      List.flatMap_map]
    exact foldlM_items hgap hd hxs.2

end Elements

/-- No value begins with white space or with the end of an array. -/
theorem exists_cons_write {v : Value} (h : v.FloatFree) :
    ∃ c s, write v = c :: s ∧ isSpace c = false ∧ c ≠ ']' := by
  cases v with
  | null => exact ⟨_, _, rfl, rfl, by decide⟩
  | bool b => cases b <;> exact ⟨_, _, rfl, rfl, by decide⟩
  | integer n =>
    obtain ⟨c, s, m, hwrite, hstart, -⟩ := Numeral.exists_start?_writeInteger n
    exact ⟨c, s, hwrite, Numeral.isSpace_of_start? hstart, Numeral.ne_of_start? hstart rfl⟩
  | float x => exact absurd h (Value.not_floatFree_float x)
  | string s => exact ⟨_, _, rfl, rfl, by decide⟩
  | list items => exact ⟨_, _, rfl, rfl, by decide⟩
  | object ms => exact ⟨_, _, rfl, rfl, by decide⟩

theorem delivers_list {frames : List Frame} {items : List Value} (hroom : frames.length < 127)
    (hfree : ∀ v ∈ items, v.FloatFree)
    (hitems : ∀ v ∈ items, ∀ before, Delivers (.item before :: frames) (write v) v.document) :
    Delivers frames (write (.list items)) (.list (items.map document)) := by
  rw [write, writeItems_eq_map]
  exact delivers_items (List.forall_mem_nil _) hroom
    (fun v hv => exists_cons_write (hfree v hv)) hitems

/-- A key and its colon, whatever comes behind. -/
theorem foldlM_key {members : Members} {frames : List Frame} {stage : Reader.Stage}
    (h : (reading ⟨stage, frames⟩).step '"' = some (reading ⟨.key members .start, frames⟩))
    (key : String) (s : List Char) :
    (quote key.toList ++ ':' :: s).foldlM step (reading ⟨stage, frames⟩) =
      s.foldlM step (reading ⟨.value, .member members key :: frames⟩) := by
  have hplace : ∀ q c r, Quoted.step .keeping q c = some (.more r) →
      (reading ⟨.key members q, frames⟩).step c = some (reading ⟨.key members r, frames⟩) := by
    intro q c r h
    simp [step, Reader.step, h]
  have hend : (reading ⟨.key members ⟨.plain, key.toList.reverse⟩, frames⟩).step '"' =
      some (reading ⟨.colon members key, frames⟩) := by
    simp [step, Reader.step, Quoted.step_quote]
  rw [quote, List.cons_append, foldlM_cons h, List.append_assoc,
    foldlM_append (foldlM_of_reads hplace (Quoted.reads_text key)), List.singleton_append,
    foldlM_cons hend]
  rfl

/-- The members of an object after the first, and its end. -/
theorem foldlM_members {d : Document} {v : Value} {before : Members} {key : String}
    {frames : List Frame} (hd : d.Holds v (.member before key :: frames)) {ms : Members}
    (hms : ∀ m ∈ ms, ∀ before key, Delivers (.member before key :: frames) (write m.2) m.2.document) :
    ((ms.flatMap fun m => ',' :: (quote m.1.toList ++ ':' :: write m.2)) ++ ['\x7d']).foldlM step d =
      some (delivered frames (.object (documentMembers (before.set key v) ms))) := by
  induction ms generalizing d v before key with
  | nil =>
    have hend : d.step '\x7d' = some (delivered frames (.object (before.set key v))) := by
      rw [hd '\x7d' (by decide)]
      cases frames <;> rfl
    rw [List.flatMap_nil, List.nil_append, foldlM_cons hend]
    rfl
  | cons m ms ih =>
    rw [List.forall_mem_cons] at hms
    obtain ⟨e, hread, he⟩ := hms.1 (before.set key v) m.1
    have hcomma : d.step ',' = some (reading ⟨.nextKey (before.set key v), frames⟩) :=
      hd ',' (by decide)
    rw [List.flatMap_cons, List.append_assoc, List.cons_append, foldlM_cons hcomma,
      List.append_assoc, List.cons_append, foldlM_key rfl, foldlM_append hread, ih he hms.2]
    rfl

theorem delivers_object {frames : List Frame} {ms : Members} (hroom : frames.length < 127)
    (hms : ∀ m ∈ ms, ∀ before key, Delivers (.member before key :: frames) (write m.2) m.2.document) :
    Delivers frames (write (.object ms)) (.object (documentMembers [] ms)) := by
  have hopen : (reading ⟨.value, frames⟩).step '\x7b' = some (reading ⟨.firstKey, frames⟩) := by
    simp [step, Reader.step, Reader.begin, Reader.mayOpen, Rules.keeping, hroom, isSpace]
  refine delivers_of_foldlM ?_
  rw [write, writeMembers_eq_map, foldlM_cons hopen]
  cases ms with
  | nil => cases frames <;> rfl
  | cons m ms =>
    rw [List.forall_mem_cons] at hms
    obtain ⟨d, hread, hd⟩ := hms.1 [] m.1
    rw [List.map_cons, intercalate_cons, List.append_assoc, List.append_assoc, List.cons_append,
      foldlM_key rfl, foldlM_append hread, List.flatMap_map]
    exact foldlM_members hd hms.2

/-- The text of a value is read as its document wherever there is room for it. -/
theorem delivers_write {v : Value} (hf : v.FloatFree) {frames : List Frame}
    (hd : frames.length + v.depth ≤ 127) : Delivers frames (write v) v.document := by
  induction v using Value.induction generalizing frames with
  | null => exact delivers_of_foldlM (by cases frames <;> rfl)
  | bool b => exact delivers_of_foldlM (by cases b <;> cases frames <;> rfl)
  | integer n => exact delivers_writeInteger frames n
  | float x => exact absurd hf (Value.not_floatFree_float x)
  | string s => exact delivers_quote frames s
  | list items ih =>
    rw [Value.floatFree_list] at hf
    have hdepth := Value.depth_list_le.1 (Nat.le_refl (Value.list items).depth)
    rw [document, Value.documentItems_eq_map]
    refine delivers_list (by omega) hf fun v hv before => ih v hv (hf v hv) ?_
    have hlt := hdepth.2 v hv
    rw [List.length_cons]
    omega
  | object ms ih =>
    rw [Value.floatFree_object] at hf
    have hdepth := Value.depth_object_le.1 (Nat.le_refl (Value.object ms).depth)
    rw [document]
    refine delivers_object (by omega) fun m hm before key => ih m hm (hf m hm) ?_
    have hlt := hdepth.2 m hm
    rw [List.length_cons]
    omega

end Document

theorem read_print_eq_document {v : Value} (hf : v.FloatFree) (hd : v.depth ≤ 127) :
    read (print v) = .ok v.document := by
  have hroom : ([] : List Frame).length + v.document.depth ≤ 127 := by
    simpa using Value.depth_document_le hd
  rw [read, print, String.toList_ofList,
    (Document.delivers_write (Value.floatFree_document hf) hroom).readChars_eq,
    Value.document_document hf]

/-- A value without doubles that is nested no deeper than the reader goes comes back from its
JSON text as its document, which is the value with each key of an object once, and the value
itself if no key occurs twice. A template shows the same text for an object. -/
theorem read_print {v : Value} (hf : v.FloatFree) (hd : v.depth ≤ 127) :
    (read (print v) = .ok v.document ∧ v.Merges v.document ∧
      (v.DistinctKeys → v.document = v)) ∧
      ∀ ms, v = .object ms → ∀ (w : Walk) (path : String), w.scopes.resolve? path = some v →
        Node.walk (.placeholder path []) w = w.emit (print v) := by
  refine ⟨⟨read_print_eq_document hf hd, Value.merges_document hf, Value.document_eq_self hf⟩, ?_⟩
  intro ms hv w path hpath
  subst hv
  rw [Node.walk, Scopes.textAt, hpath]
  rfl

/-- The lowest integer, characters that are escaped, and a key that occurs twice. -/
theorem read_print_repeated :
    let v : Value := .object [("n", .integer (-9223372036854775808)),
      ("\"\u0001é", .list [.string "\\\n", .bool true, .list []]), ("n", .object [])]
    v.FloatFree ∧ v.depth ≤ 127 ∧ Json.read (Json.print v) = .ok (.object [("n", .object []),
      ("\"\u0001é", .list [.string "\\\n", .bool true, .list []])]) := by
  intro v
  have hf : v.FloatFree := by simp [v]
  have hd : v.depth ≤ 127 := by decide
  exact ⟨hf, hd, (read_print hf hd).1.1⟩

end BibTemplate.Json

import BibTemplate.Json.Scalar

/-!
# Reading a document

A document is read one character at a time. The reader keeps the arrays and
objects that are open, innermost first, each with the values that it already
holds; when a value is complete it goes to the innermost of them. A key that
occurs again in an object replaces the value of its first occurrence.
-/
namespace BibTemplate.Json

open Value (Members)

/-- An open array or object while one of its values is being read: the elements before,
last first, or the members before and the key of the value. -/
inductive Frame where
  | item (before : List Value)
  | member (before : Members) (key : String)

/-- An open array or object after one of its values. -/
inductive Container where
  | array (items : List Value)
  | object (members : Members)

/-- Adds the value that has been read. -/
def Frame.add : Frame → Value → Container
  | .item before, v => .array (v :: before)
  | .member before key, v => .object (before.set key v)

/-- What the reader expects next. -/
inductive Reader.Stage where
  /-- A value. -/
  | value
  /-- The first element of an array, or its end. -/
  | firstItem
  /-- The first key of an object, or its end. -/
  | firstKey
  /-- The next key of an object. -/
  | nextKey (members : Members)
  | key (members : Members) (text : Quoted)
  | colon (members : Members) (key : String)
  | scalar (s : Scalar)
  /-- A comma or the end of the innermost array or object. -/
  | after (container : Container)

/-- A value being read, inside the frames that surround it. -/
structure Reader where
  stage : Reader.Stage
  frames : List Frame

namespace Reader

def start : Reader := ⟨.value, []⟩

/-- A complete value goes to the innermost frame, or is the result. -/
def deliver (frames : List Frame) (v : Value) : Progress Reader Value :=
  match frames with
  | [] => .done v
  | f :: fs => .more ⟨.after (f.add v), fs⟩

/-- Whether one more array or object may be opened inside the frames. -/
def mayOpen (rules : Rules) (frames : List Frame) : Bool :=
  match rules.depth with
  | none => true
  | some depth => frames.length < depth

/-- Reads the first character of a value. -/
def begin (rules : Rules) (frames : List Frame) (c : Char) : Option Reader :=
  if c = '[' then if mayOpen rules frames then some ⟨.firstItem, frames⟩ else none
  else if c = '\x7b' then if mayOpen rules frames then some ⟨.firstKey, frames⟩ else none
  else (Scalar.start? c).map fun s => ⟨.scalar s, frames⟩

/-- Reads a character after a value inside a container. -/
def next (container : Container) (frames : List Frame) (c : Char) :
    Option (Progress Reader Value) :=
  if isSpace c then some (.more ⟨.after container, frames⟩)
  else
    match container with
    | .array items =>
      if c = ',' then some (.more ⟨.value, .item items :: frames⟩)
      else if c = ']' then some (deliver frames (.list items.reverse))
      else none
    | .object members =>
      if c = ',' then some (.more ⟨.nextKey members, frames⟩)
      else if c = '\x7d' then some (deliver frames (.object members))
      else none

/-- Reads one more character; none if it does not fit. -/
def step (rules : Rules) (r : Reader) (c : Char) : Option (Progress Reader Value) :=
  match r.stage with
  | .value =>
    if isSpace c then some (.more r) else (begin rules r.frames c).map .more
  | .firstItem =>
    if isSpace c then some (.more r)
    else if c = ']' then some (deliver r.frames (.list []))
    else (begin rules (.item [] :: r.frames) c).map .more
  | .firstKey =>
    if isSpace c then some (.more r)
    else if c = '"' then some (.more ⟨.key [] .start, r.frames⟩)
    else if c = '\x7d' then some (deliver r.frames (.object []))
    else none
  | .nextKey members =>
    if isSpace c then some (.more r)
    else if c = '"' then some (.more ⟨.key members .start, r.frames⟩)
    else none
  | .key members q =>
    (q.step rules c).map fun
      | .more q => .more ⟨.key members q, r.frames⟩
      | .done key => .more ⟨.colon members key, r.frames⟩
      | .past key => .more ⟨.colon members key, r.frames⟩
  | .colon members key =>
    if isSpace c then some (.more r)
    else if c = ':' then some (.more ⟨.value, .member members key :: r.frames⟩)
    else none
  | .scalar s =>
    match s.step rules c with
    | none => none
    | some (.more s) => some (.more ⟨.scalar s, r.frames⟩)
    | some (.done v) => some (deliver r.frames v)
    | some (.past v) =>
      match r.frames with
      | [] => some (.past v)
      | f :: fs => next (f.add v) fs c
  | .after container => next container r.frames c

/-- What has been read when the text ends here. -/
def finish (rules : Rules) (r : Reader) : Except Fault Value :=
  match r.stage with
  | .scalar s =>
    match s.finish rules with
    | .error fault => .error fault
    | .ok v => if r.frames.isEmpty then .ok v else .error .ended
  | _ => .error .ended

end Reader

/-- A whole document being read: its value, and white space around it. -/
inductive Document where
  | reading (r : Reader)
  | complete (v : Value)

namespace Document

def start : Document := .reading .start

/-- White space after the value. -/
def trail (v : Value) (c : Char) : Option Document :=
  if isSpace c then some (.complete v) else none

/-- Reads one more character; none if it does not fit. -/
def step (d : Document) (c : Char) : Option Document :=
  match d with
  | .complete v => trail v c
  | .reading r =>
    match r.step .keeping c with
    | none => none
    | some (.more r) => some (.reading r)
    | some (.done v) => some (.complete v)
    | some (.past v) => trail v c

def finish : Document → Except Fault Value
  | .complete v => .ok v
  | .reading r => r.finish .keeping

end Document

/-- Reads a JSON text. -/
def readChars (s : List Char) : Except Fault Value :=
  match s.foldlM Document.step .start with
  | none => .error .malformed
  | some d => d.finish

/-- Reads a JSON text. -/
def read (s : String) : Except Fault Value :=
  readChars s.toList

end BibTemplate.Json

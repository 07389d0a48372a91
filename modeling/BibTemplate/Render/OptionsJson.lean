import BibTemplate.Json.Reader
import BibTemplate.Render.Options

/-!
# Render options in JSON

Options are an object with two members that may be left out, each true or false
and each given at most once. Other members are passed over, whatever they hold.
The text is read one character at a time and the first problem decides; a value of
the wrong type is a problem once it has been read to its end, and an array or
object in such a place as soon as it begins.
-/
namespace BibTemplate.RenderOptions

inductive Key where
  | sanitizeForCitekey
  | yamlArray
  deriving DecidableEq, Repr

def Key.ofString? (s : String) : Option Key :=
  if s = "sanitizeForCitekey" then some .sanitizeForCitekey
  else if s = "yamlArray" then some .yamlArray
  else none

/-- The members that have been read. -/
structure Given where
  sanitizeForCitekey : Option Bool
  yamlArray : Option Bool

def Given.get? (g : Given) : Key → Option Bool
  | .sanitizeForCitekey => g.sanitizeForCitekey
  | .yamlArray => g.yamlArray

def Given.set (g : Given) (key : Key) (b : Bool) : Given :=
  match key with
  | .sanitizeForCitekey => { g with sanitizeForCitekey := some b }
  | .yamlArray => { g with yamlArray := some b }

/-- What is not given is false. -/
def Given.options (g : Given) : RenderOptions where
  sanitizeForCitekey := g.sanitizeForCitekey.getD false
  yamlArray := g.yamlArray.getD false

/-- What the reader expects next. -/
inductive Reader.Stage where
  /-- The object. -/
  | start
  | firstKey
  | nextKey
  | key (text : Json.Quoted)
  /-- A colon, and then the value of the key, which may be an unknown one. -/
  | colon (key : Option Key)
  | value (key : Key)
  /-- More of a scalar that is the value of a key, or stands in the place of the object. -/
  | scalar (key : Option Key) (s : Json.Scalar)
  /-- More of the value of an unknown key. -/
  | unknown (r : Json.Reader)
  | afterMember
  | finished

structure Reader where
  stage : Reader.Stage
  given : Given

namespace Reader

open Json (Fault isSpace)

def start : Reader := ⟨.start, ⟨none, none⟩⟩

def goto (r : Reader) (stage : Stage) : Except Fault Reader := .ok { r with stage }

/-- A character that may only begin a scalar. -/
def beginScalar (r : Reader) (key : Option Key) (c : Char) : Except Fault Reader :=
  if c = '[' ∨ c = '\x7b' then .error .mistyped
  else
    match Json.Scalar.start? c with
    | none => .error .malformed
    | some s => r.goto (.scalar key s)

/-- Takes a scalar for the value of a key. -/
def accept (r : Reader) (key : Option Key) (v : Value) : Except Fault Reader :=
  match key, v with
  | some key, .bool b => .ok ⟨.afterMember, r.given.set key b⟩
  | _, _ => .error .mistyped

/-- A key, unless it has been given before. -/
def acceptKey (r : Reader) (s : String) : Except Fault Reader :=
  match Key.ofString? s with
  | none => r.goto (.colon none)
  | some key => if (r.given.get? key).isSome then .error .mistyped else r.goto (.colon (some key))

/-- A character after a member. -/
def next (r : Reader) (c : Char) : Except Fault Reader :=
  if isSpace c then r.goto .afterMember
  else if c = ',' then r.goto .nextKey
  else if c = '\x7d' then r.goto .finished
  else .error .malformed

/-- Reads one more character. -/
def step (r : Reader) (c : Char) : Except Fault Reader :=
  match r.stage with
  | .start =>
    if isSpace c then .ok r
    else if c = '\x7b' then r.goto .firstKey
    else r.beginScalar none c
  | .firstKey =>
    if isSpace c then .ok r
    else if c = '"' then r.goto (.key .start)
    else if c = '\x7d' then r.goto .finished
    else .error .malformed
  | .nextKey =>
    if isSpace c then .ok r
    else if c = '"' then r.goto (.key .start)
    else .error .malformed
  | .key text =>
    match text.step .keeping c with
    | none => .error .malformed
    | some (.more text) => r.goto (.key text)
    | some (.done s) | some (.past s) => r.acceptKey s
  | .colon key =>
    if isSpace c then .ok r
    else if c = ':' then
      match key with
      | none => r.goto (.unknown .start)
      | some key => r.goto (.value key)
    else .error .malformed
  | .value key => if isSpace c then .ok r else r.beginScalar (some key) c
  | .scalar key s =>
    match s.step .keeping c with
    | none => .error .malformed
    | some (.more s) => r.goto (.scalar key s)
    | some (.done v) | some (.past v) => r.accept key v
  | .unknown reader =>
    match reader.step .skipping c with
    | none => .error .malformed
    | some (.more reader) => r.goto (.unknown reader)
    | some (.done _) => r.goto .afterMember
    | some (.past _) => r.next c
  | .afterMember => r.next c
  | .finished => if isSpace c then .ok r else .error .malformed

/-- What has been read when the text ends here. -/
def finish (r : Reader) : Except Fault RenderOptions :=
  match r.stage with
  | .finished => .ok r.given.options
  | .scalar key s => ((s.finish .keeping).bind (r.accept key)).bind fun _ => .error .ended
  | .unknown reader => (reader.finish .skipping).bind fun _ => .error .ended
  | _ => .error .ended

end Reader

/-- Reads options from a JSON text. -/
def read (s : String) : Except Json.Fault RenderOptions :=
  (s.toList.foldlM Reader.step Reader.start).bind Reader.finish

end BibTemplate.RenderOptions

import BibTemplate.Json.Basic

/-!
# Quoted strings

Writing escapes the quote, the backslash and the characters below U+0020, the
usual ones by a letter and the others by four hexadecimal digits; everything else
stands for itself. Reading takes one character at a time. It accepts every escape
of the format; an escape beyond the basic plane is a pair of surrogates, and a
surrogate without its partner is refused where the string is kept.
-/
namespace BibTemplate.Json

def hexDigit (n : Nat) : Char :=
  Nat.digitChar n

/-- The written form of one character inside a string. -/
def escape (c : Char) : List Char :=
  if c = '"' then ['\\', '"']
  else if c = '\\' then ['\\', '\\']
  else if c = '\x08' then ['\\', 'b']
  else if c = '\t' then ['\\', 't']
  else if c = '\n' then ['\\', 'n']
  else if c = '\x0c' then ['\\', 'f']
  else if c = '\r' then ['\\', 'r']
  else if c.toNat < 0x20 then
    ['\\', 'u', '0', '0', hexDigit (c.toNat / 16), hexDigit (c.toNat % 16)]
  else [c]

/-- A string between quotes. -/
def quote (s : List Char) : List Char :=
  '"' :: (s.flatMap escape ++ ['"'])

/-- The value of a hexadecimal digit. -/
def hexValue? (c : Char) : Option Nat :=
  if '0' ≤ c ∧ c ≤ '9' then some (c.toNat - 48)
  else if 'a' ≤ c ∧ c ≤ 'f' then some (c.toNat - 87)
  else if 'A' ≤ c ∧ c ≤ 'F' then some (c.toNat - 55)
  else none

def isLead (n : Nat) : Bool := 0xD800 ≤ n && n ≤ 0xDBFF

def isTrail (n : Nat) : Bool := 0xDC00 ≤ n && n ≤ 0xDFFF

/-- Where the reader is inside a string. -/
inductive Quoted.Stage where
  | plain
  | escape
  /-- In a numeric escape, after a leading surrogate if there is one: how many bytes have
  been read, and their value unless one of them is not a hexadecimal digit. -/
  | code (lead : Option Nat) (bytes : Nat) (value : Option Nat)
  /-- After a leading surrogate, where the escape of its partner must begin. -/
  | partner (lead : Nat)
  | partnerCode (lead : Nat)
  deriving DecidableEq, Repr

/-- A string being read, after its opening quote; its text so far is kept last character
first. -/
structure Quoted where
  stage : Quoted.Stage
  text : List Char
  deriving DecidableEq, Repr

namespace Quoted

def start : Quoted := ⟨.plain, []⟩

def push (q : Quoted) (c : Char) : Quoted := ⟨.plain, c :: q.text⟩

/-- The end of a numeric escape with the value `n`. -/
def code (rules : Rules) (q : Quoted) (lead : Option Nat) (n : Nat) : Option Quoted :=
  match lead with
  | some high =>
    if isTrail n then some (q.push (.ofNat (0x10000 + (high - 0xD800) * 0x400 + (n - 0xDC00))))
    else none
  | none =>
    if isLead n then
      if rules.pairedSurrogates then some { q with stage := .partner n }
      else some { q with stage := .plain }
    else if isTrail n then
      if rules.pairedSurrogates then none else some { q with stage := .plain }
    else some (q.push (.ofNat n))

/-- The characters that a backslash and a letter stand for. -/
def letter? (c : Char) : Option Char :=
  match c with
  | '"' => some '"'
  | '\\' => some '\\'
  | '/' => some '/'
  | 'b' => some '\x08'
  | 'f' => some '\x0c'
  | 'n' => some '\n'
  | 'r' => some '\r'
  | 't' => some '\t'
  | _ => none

/-- Reads one more character; none if it does not fit. The four bytes of a numeric escape
are all read before a wrong one among them counts. -/
def step (rules : Rules) (q : Quoted) (c : Char) : Option (Progress Quoted String) :=
  match q.stage with
  | .plain =>
    if c = '"' then some (.done (.ofList q.text.reverse))
    else if c = '\\' then some (.more { q with stage := .escape })
    else if c.toNat < 0x20 then none
    else some (.more (q.push c))
  | .escape =>
    if c = 'u' then some (.more { q with stage := .code none 0 (some 0) })
    else (letter? c).map fun d => .more (q.push d)
  | .code lead bytes value =>
    let bytes := bytes + c.utf8Size
    let value := value.bind fun n => (hexValue? c).map (16 * n + ·)
    if bytes < 4 then some (.more { q with stage := .code lead bytes value })
    else (value.bind (q.code rules lead)).map .more
  | .partner lead =>
    if c = '\\' then some (.more { q with stage := .partnerCode lead }) else none
  | .partnerCode lead =>
    if c = 'u' then some (.more { q with stage := .code (some lead) 0 (some 0) }) else none

end Quoted

end BibTemplate.Json

import BibTemplate.Render.Options

/-!
# The log

What a run says about its work. Warnings are always shown, and the rest if the log
was asked for. The environment may have a say in this as well; here it has none.
-/
namespace BibTemplate.CommandLine

inductive LogEvent where
  | parsedTemplate (sourceBytes nodes : Nat)
  | renderedTemplate (options : RenderOptions) (outputBytes : Nat)
  | validTemplate (nodes : Nat)
  | arrayOutput (length : Nat)
  | otherOutput
  | brokenOutput
  deriving DecidableEq, Repr

namespace LogEvent

def isWarning : LogEvent → Bool
  | otherOutput | brokenOutput => true
  | _ => false

/-- Whether the event is shown. -/
def shown (verbose : Bool) (e : LogEvent) : Bool := verbose || e.isWarning

def flag (b : Bool) : String := if b then "true" else "false"

/-- The part of the program that speaks, and what it says. -/
def message : LogEvent → String
  | parsedTemplate sourceBytes nodes =>
    "citeplate_core::template: parsed template source_len=" ++ sourceBytes.repr ++ " nodes=" ++
      nodes.repr
  | renderedTemplate options outputBytes =>
    "citeplate_core::renderer: rendered template sanitize_for_citekey=" ++
      flag options.sanitizeForCitekey ++ " yaml_array=" ++ flag options.yamlArray ++
      " output_len=" ++ outputBytes.repr
  | validTemplate nodes => "citeplate: template is valid nodes=" ++ nodes.repr
  | arrayOutput length => "citeplate: output parses as a JSON array len=" ++ length.repr
  | otherOutput => "citeplate: output is valid JSON but not an array"
  | brokenOutput => "citeplate: output does not parse as a JSON array"

/-- The line that is shown. -/
def line (e : LogEvent) : String :=
  (if e.isWarning then "WARN " else "DEBUG ") ++ e.message

end LogEvent

end BibTemplate.CommandLine

import BibTemplate.CommandLine.Dialogue
import BibTemplate.CommandLine.Run

/-!
# The program

Holds the dialogue of a command with the real surroundings: files, standard input,
standard output, and standard error for the log and for failures.
-/
namespace BibTemplate.CommandLine

/-- The bytes that an action reads, if it succeeds. -/
def attempt (action : IO ByteArray) : IO (Option ByteArray) := do
  try
    let bytes ← action
    return some bytes
  catch _ =>
    return none

/-- Holds a dialogue with the real surroundings and gives the exit status. -/
def Dialogue.perform (verbose : Bool) : Dialogue → IO UInt32
  | readFile path next => do
    let content ← attempt (IO.FS.readBinFile path)
    (next content).perform verbose
  | readInput next => do
    let stdin ← IO.getStdin
    let content ← attempt stdin.readBinToEnd
    (next content).perform verbose
  | log event next => do
    if event.shown verbose then
      IO.eprintln event.line
    next.perform verbose
  | writeFile path content next => do
    let written ← try
        IO.FS.writeFile path content
        pure true
      catch _ => pure false
    (next written).perform verbose
  | done output => do
    IO.print output
    return 0
  | fail failure => do
    IO.eprintln ("Error: " ++ failure.message)
    match failure.defect? with
    | some e => IO.eprintln ("\nCaused by:\n    " ++ e.message)
    | none => pure ()
    return 1

end BibTemplate.CommandLine

open BibTemplate.CommandLine in
def main (args : List String) : IO UInt32 := do
  match Request.ofArguments? args with
  | none =>
    IO.eprintln "error: the arguments are not to be understood"
    return 2
  | some .version =>
    IO.print versionText
    return 0
  | some (.help place) =>
    IO.print (helpText place)
    return 0
  | some (.run verbose command) => (Dialogue.ofCommand command).perform verbose

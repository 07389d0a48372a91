import BibTemplate.CommandLine.Dialogue

/-!
# A run in a directory

The whole program as a function: from its arguments, its standard input and the
files of its directory to a log, an output or a failure, and the files afterwards.
-/
namespace BibTemplate.CommandLine

/-- How a run ends: with the events of its log, an output or a failure, and the files as
they are then. -/
structure Ending where
  log : List LogEvent
  result : Except Failure String
  directory : Directory

/-- Holds a dialogue with a directory and a standard input. A file that cannot be written
leaves the directory as it is. -/
def Dialogue.hold (input : ByteArray) : Dialogue → Directory → Ending
  | readFile path next, d => (next (d.read? path)).hold input d
  | readInput next, d => (next (some input)).hold input d
  | log event next, d =>
    let ending := next.hold input d
    { ending with log := event :: ending.log }
  | writeFile path content next, d =>
    match d.write? path content.toUTF8 with
    | some written => (next true).hold input written
    | none => (next false).hold input d
  | done output, d => ⟨[], .ok output, d⟩
  | fail failure, d => ⟨[], .error failure, d⟩

/-- What the program answers when it is asked for its version. -/
def versionText : String := "citeplate 0.1.0\n"

/-- What the program answers when it is asked for help. Only the first line is given here, without
the commands and options that are listed behind it. -/
def helpText : Place → String
  | .front => "Render citation-metadata templates (citekeys, filenames, note fields)\n"
  | .render => "Render a template against a JSON context\n"
  | .check => "Check a template for syntax errors without rendering it\n"
  | .filters => "List the available filters\n"
  | .help => "Print this message or the help of the given subcommand(s)\n"

/-- The run that the arguments ask for, with the events of its log that are shown; none if
the arguments are not to be understood, and then nothing is touched. -/
def run? (args : List String) (input : ByteArray) (d : Directory) : Option Ending :=
  match Request.ofArguments? args with
  | none => none
  | some .version => some ⟨[], .ok versionText, d⟩
  | some (.help place) => some ⟨[], .ok (helpText place), d⟩
  | some (.run verbose command) =>
    let ending := (Dialogue.ofCommand command).hold input d
    some { ending with log := ending.log.filter (·.shown verbose) }

/-- The exit status of a run: 2 for arguments that are not to be understood, 1 for a
failure, 0 otherwise. -/
def exitStatus (run : Option Ending) : Nat :=
  match run with
  | none => 2
  | some ⟨_, .error _, _⟩ => 1
  | some ⟨_, .ok _, _⟩ => 0

end BibTemplate.CommandLine

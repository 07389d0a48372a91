import BibTemplate.CommandLine.Arguments
import BibTemplate.CommandLine.Directory
import BibTemplate.CommandLine.Log
import BibTemplate.Render.Basic

/-!
# A run as a dialogue

A command works by asking its surroundings, one thing after the other: for the
content of a file, for standard input, for a line in the log, for a file to be
written. At the end it has either an output or a failure. The first stage that
fails ends the run: reading the template, parsing it, reading the context, parsing
that, writing the output.
-/
namespace BibTemplate.CommandLine

/-- Why a run fails. -/
inductive Failure where
  | templateFile (path : String)
  | renderTemplate (error : SyntaxError)
  | checkTemplate (error : SyntaxError)
  | contextFile (path : String)
  | standardInput
  | context (fault : Json.Fault)
  | outputFile (path : String)
  deriving DecidableEq, Repr

namespace Failure

def message : Failure → String
  | templateFile path => "Failed to read template file: " ++ path
  | renderTemplate _ => "Failed to parse template"
  | checkTemplate _ => "Template is invalid"
  | contextFile path => "Failed to read file: " ++ path
  | standardInput => "Failed to read from stdin"
  | context _ => "Failed to parse context JSON"
  | outputFile path => "Failed to write file: " ++ path

/-- The defect behind the failure. -/
def defect? : Failure → Option SyntaxError
  | renderTemplate e | checkTemplate e => some e
  | _ => none

end Failure

/-- What a run asks of its surroundings. A file or standard input that cannot be read
answers nothing. -/
inductive Dialogue where
  | readFile (path : String) (next : Option ByteArray → Dialogue)
  | readInput (next : Option ByteArray → Dialogue)
  | log (event : LogEvent) (next : Dialogue)
  | writeFile (path : String) (content : String) (next : Bool → Dialogue)
  | done (output : String)
  | fail (failure : Failure)

namespace Dialogue

/-- Goes on with the text that was read, or fails if there is none or it is not UTF-8. -/
def withText (failure : Failure) (next : String → Dialogue) (content : Option ByteArray) :
    Dialogue :=
  match content.bind String.fromUTF8? with
  | some text => next text
  | none => fail failure

def readTemplate (source : TemplateSource) (next : String → Dialogue) : Dialogue :=
  match source with
  | .inline text => next text
  | .file path => readFile path (withText (.templateFile path) next)

def parseTemplate (failure : SyntaxError → Failure) (source : String)
    (next : Template → Dialogue) : Dialogue :=
  match Template.parse source with
  | .error e => fail (failure e)
  | .ok t => log (.parsedTemplate source.utf8ByteSize t.nodes.length) (next t)

def readContext (path : Option String) (next : String → Dialogue) : Dialogue :=
  match path with
  | some path => readFile path (withText (.contextFile path) next)
  | none => readInput (withText .standardInput next)

/-- A context of white space alone means an object without members. -/
def contextOf (text : String) : Except Json.Fault Value :=
  if text.toList.all Text.isBlank then .ok (.object []) else Json.read text

def parseContext (text : String) (next : Value → Dialogue) : Dialogue :=
  match contextOf text with
  | .error fault => fail (.context fault)
  | .ok v => next v

/-- Says whether an output is the JSON array that it is meant to be. -/
def checkArray (output : String) : LogEvent :=
  match Json.read output with
  | .ok (.list items) => .arrayOutput items.length
  | .ok _ => .otherOutput
  | .error _ => .brokenOutput

def writeOutput (path : Option String) (output : String) : Dialogue :=
  match path with
  | none => done output
  | some path =>
    writeFile path output fun written => if written then done "" else fail (.outputFile path)

/-- Renders, and writes the output. -/
def output (t : Template) (v : Value) (options : RenderOptions) (path : Option String) :
    Dialogue :=
  let text := t.render v options
  log (.renderedTemplate options text.utf8ByteSize)
    (if options.yamlArray then log (checkArray text) (writeOutput path text)
    else writeOutput path text)

/-- The run of a command. -/
def ofCommand : Command → Dialogue
  | .render source context path options =>
    readTemplate source fun text =>
      parseTemplate .renderTemplate text fun t =>
        readContext context fun json =>
          parseContext json fun v => output t v options path
  | .check source =>
    readTemplate source fun text =>
      parseTemplate .checkTemplate text fun t =>
        log (.validTemplate t.nodes.length) (done "ok\n")
  | .filters => done (.join (Filter.names.map (· ++ "\n")))

end Dialogue

end BibTemplate.CommandLine

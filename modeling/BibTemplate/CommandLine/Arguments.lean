import BibTemplate.Render.Options

/-!
# Command-line arguments

The program is called with a command, `render`, `check` or `filters`, and options
before or after it. An option has a long name and most have a letter; letters may
be put together behind one hyphen. Some options take a value: the rest of their
argument, after an equals sign if there is one, or else the next argument, which
must not look like an option. No option may be given twice at one place, and
exactly one of the two sources of a template must be given. A request for the
version or for help is answered as soon as it is met. A command of its own, `help`,
asks for the help of the program or of the command that is named behind it.
-/
namespace BibTemplate.CommandLine

/-- The options. -/
inductive Switch where
  | template
  | templateFile
  | context
  | output
  | citekey
  | yamlArray
  | verbose
  | help
  | version
  deriving DecidableEq, Repr

namespace Switch

def long : Switch → String
  | template => "template"
  | templateFile => "template-file"
  | context => "context"
  | output => "output"
  | citekey => "citekey"
  | yamlArray => "yaml-array"
  | verbose => "verbose"
  | help => "help"
  | version => "version"

def letter? : Switch → Option Char
  | template => some 't'
  | templateFile => some 'f'
  | context => some 'c'
  | output => some 'o'
  | citekey | yamlArray => none
  | verbose => some 'v'
  | help => some 'h'
  | version => some 'V'

def takesValue : Switch → Bool
  | template | templateFile | context | output => true
  | citekey | yamlArray | verbose | help | version => false

end Switch

/-- Where the arguments are read: before the command, or after one of the commands. -/
inductive Place where
  | front
  | render
  | check
  | filters
  | help
  deriving DecidableEq, Repr

/-- The options that may be given at a place. -/
def Place.switches : Place → List Switch
  | .front => [.verbose, .help, .version]
  | .render =>
    [.template, .templateFile, .context, .output, .citekey, .yamlArray, .verbose, .help]
  | .check => [.template, .templateFile, .verbose, .help]
  | .filters => [.verbose, .help]
  | .help => []

/-- The command with a name. -/
def Place.ofCommand? (name : String) : Option Place :=
  if name = "render" then some .render
  else if name = "check" then some .check
  else if name = "filters" then some .filters
  else if name = "help" then some .help
  else none

/-- Where the text of a template comes from. -/
inductive TemplateSource where
  | inline (text : String)
  | file (path : String)
  deriving DecidableEq, Repr

inductive Command where
  /-- Renders a template with a context from a file or from standard input, to a file or to
  standard output. -/
  | render (source : TemplateSource) (context output : Option String) (options : RenderOptions)
  /-- Looks a template through for defects. -/
  | check (source : TemplateSource)
  /-- Lists the filters. -/
  | filters
  deriving DecidableEq, Repr

/-- What the arguments ask for. -/
inductive Request where
  | version
  | help (place : Place)
  | run (verbose : Bool) (command : Command)
  deriving DecidableEq, Repr

/-- Why the arguments are not read to the end. -/
inductive Stop where
  | usage
  | version
  | help (place : Place)
  /-- The command `help` takes all arguments behind it. -/
  | helpCommand
  deriving DecidableEq, Repr

/-- The arguments read so far. -/
structure Reading where
  place : Place
  /-- The options given at the place, with their values. -/
  given : List (Switch × String)
  /-- Whether the log was asked for before the command. -/
  verboseInFront : Bool
  /-- The option whose value comes next. -/
  pending : Option Switch
  /-- Whether two hyphens have closed the options. -/
  closed : Bool

namespace Reading

def start : Reading := ⟨.front, [], false, none, false⟩

def value? (r : Reading) (s : Switch) : Option String := r.given.lookup s

def has (r : Reading) (s : Switch) : Bool := (r.value? s).isSome

/-- Notes an option with its value. -/
def give (r : Reading) (s : Switch) (value : String) : Except Stop Reading :=
  if s = .version then .error .version
  else if s = .help then .error (.help r.place)
  else if r.has s then .error .usage
  else .ok { r with given := (s, value) :: r.given, pending := none }

/-- Reads the letters behind one hyphen. -/
def letters (r : Reading) : List Char → Except Stop Reading
  | [] => .ok r
  | c :: cs =>
    match r.place.switches.find? fun s => s.letter? = some c with
    | none => .error .usage
    | some s =>
      if s.takesValue then
        match cs with
        | [] => if r.has s then .error .usage else .ok { r with pending := some s }
        | '=' :: value => r.give s (.ofList value)
        | value => r.give s (.ofList value)
      else (r.give s "").bind fun r => r.letters cs

/-- Reads a long option, from what follows its two hyphens. -/
def longOption (r : Reading) (s : List Char) : Except Stop Reading :=
  let name := String.ofList (s.takeWhile (· ≠ '='))
  match r.place.switches.find? fun s => s.long = name, s.dropWhile (· ≠ '=') with
  | none, _ => .error .usage
  | some s, [] =>
    if s.takesValue then
      if r.has s then .error .usage else .ok { r with pending := some s }
    else r.give s ""
  | some s, _ :: value => if s.takesValue then r.give s (.ofList value) else .error .usage

/-- Reads an argument that is not an option: the name of a command, once. -/
def word (r : Reading) (s : String) : Except Stop Reading :=
  match r.place, Place.ofCommand? s with
  | .front, some place =>
    if r.closed then .error .usage
    else if place = .help then .error .helpCommand
    else .ok { r with place, given := [], verboseInFront := r.has .verbose }
  | _, _ => .error .usage

/-- Reads one more argument. -/
def step (r : Reading) (arg : String) : Except Stop Reading :=
  match r.closed, r.pending, arg.toList with
  | true, _, _ => .error .usage
  | false, some s, ['-'] => r.give s arg
  | false, some _, '-' :: _ => .error .usage
  | false, some s, _ => r.give s arg
  | false, none, ['-', '-'] => .ok { r with closed := true }
  | false, none, '-' :: '-' :: name => r.longOption name
  | false, none, '-' :: c :: cs => r.letters (c :: cs)
  | false, none, _ => r.word arg

/-- The source of the template, which must be given, and by one option alone. -/
def source? (r : Reading) : Option TemplateSource :=
  match r.value? .template, r.value? .templateFile with
  | some text, none => some (.inline text)
  | none, some path => some (.file path)
  | _, _ => none

def command? (r : Reading) : Option Command :=
  match r.place with
  | .front | .help => none
  | .filters => some .filters
  | .check => r.source?.map .check
  | .render =>
    r.source?.map fun source =>
      .render source (r.value? .context) (r.value? .output)
        { sanitizeForCitekey := r.has .citekey, yamlArray := r.has .yamlArray }

/-- What the arguments behind the command `help` ask for. -/
def helpAfter? : List String → Option Request
  | [] => some (.help .front)
  | [name] => (Place.ofCommand? name).map .help
  | _ => none

/-- What all the arguments ask for. -/
def finish (r : Reading) : Except Stop Request :=
  match r.pending, r.command? with
  | none, some command => .ok (.run (r.verboseInFront || r.has .verbose) command)
  | _, _ => .error .usage

end Reading

/-- What the arguments ask for; none if they are not to be understood. -/
def Request.ofArguments? (args : List String) : Option Request :=
  match (args.foldlM Reading.step .start).bind Reading.finish with
  | .ok request => some request
  | .error .usage => none
  | .error .version => some .version
  | .error (.help place) => some (.help place)
  | .error .helpCommand => Reading.helpAfter? (args.dropWhile (· ≠ "help")).tail

end BibTemplate.CommandLine

import SchemaCompletion.CommandLine.Arguments
import SchemaCompletion.CommandLine.Help
import SchemaCompletion.Settings
import SchemaCompletion.Suggestion
import SchemaCompletion.Text.Order
import SchemaCompletion.Text.Terminal

/-!
# The command line

What the program prints for its arguments, given its surroundings.

* `Environment` — the surroundings: current directory, files and variables;
* `Command` — what is asked of the schema;
* `Command.output` — the question that a command puts to the schema, and its answer in print;
* `Result`, `run` — what comes of a list of arguments.

Options of the program stand before the command, options of a command behind it. Help and version
are shown as soon as all options could be read, before any of them is checked.
-/

namespace SchemaCompletion

namespace CommandLine

/-- The surroundings of the program. The bindings are the variables with their values. -/
structure Environment where
  directory : Path
  storage : Storage
  bindings : List (String × String)
  deriving Repr

/-- What comes of a list of arguments. -/
inductive Result where
  | misused
  | finished (status : Nat) (out err : String)
  | failed (e : OsError)
  deriving DecidableEq, Repr

/-- A text that is shown about the program itself. -/
def Result.shown (text : String) : Result := .finished 0 text ""

/-! ## Commands -/

/-- The two forms of a declaration. -/
inductive Form where
  | method
  | field
  deriving DecidableEq, Repr

def Form.ofName? : String → Option Form
  | "method" => some .method
  | "field" => some .field
  | _ => none

/-- The form for the members of a type if none is asked for: methods for operations. -/
def Form.standard (type : String) : Form :=
  if operationTypes.contains type then .method else .field

def Form.text (d : Dialect) : Form → Member → String
  | .method => d.methodText
  | .field => d.fieldText

/-- What is asked of the schema. -/
inductive Command where
  | types
  | fields (type : String) (form : Option Form)
  | suggest (type : Option String) (existing : List String)
  deriving DecidableEq, Repr

/-- The question that a command puts to the schema, and its answer in print. An empty type name asks
for the operations of a client API. -/
def Command.output (h : Host) (schemaFile : String) (d : Dialect) : Command → Query String
  | .types => do return unlines (Text.sorted (← Query.typeNames h schemaFile))
  | .fields type form => do
    let members ← Query.fieldsIn h schemaFile type
    return unlines (members.map ((form.getD (.standard type)).text d))
  | .suggest type existing => do
    let name := type.getD ""
    if name = "" then return listing (← Query.apiSuggestions h schemaFile d existing)
    else return listing (← Query.typeSuggestions h schemaFile d name existing)

/-! ## Printing -/

/-- A text as it is printed where no terminal listens. -/
def printed (text : String) : String :=
  String.ofList (Text.withoutControlSequences text.toList)

/-- What an event writes to the error stream: its line of the log if the log is on, and a
diagnostic. -/
def errorText (logged : Bool) (e : Event) : String :=
  (if logged then e.logLine ++ "\n" else "") ++
    match e.diagnostic? with
    | some d => printed (d.message ++ "\n")
    | none => ""

/-- What comes of a question. The status tells whether there was a diagnostic. -/
def conclude (logged : Bool) (answer : Except OsError String × Memory) : Result :=
  match answer with
  | (.error e, _) => .failed e
  | (.ok out, memory) =>
    .finished (if memory.diagnostics.isEmpty then 0 else 1) (printed out)
      (String.join (memory.events.map (errorText logged)))

def perform (h : Host) (s : Settings) (verbose : Bool) (c : Command) : Result :=
  match reservedWords s.target with
  | .error _ => .misused
  | .ok reserved =>
    let dialect := { Dialect.java with reserved }
    conclude (verbose || s.logsDebug)
      ((c.output h s.schemaFile dialect).run.run Memory.fresh)

/-! ## Options -/

inductive ProgramOption where
  | version
  | root
  | schemaFile
  | verbose
  | help
  deriving DecidableEq, Repr

def programForms : List (OptionForm ProgramOption) :=
  [{ option := .version, long := "version", short := none, takesValue := false },
    { option := .root, long := "root", short := some 'r', takesValue := true },
    { option := .schemaFile, long := "schema-file", short := some 's', takesValue := true },
    { option := .verbose, long := "verbose", short := some 'v', takesValue := false },
    { option := .help, long := "help", short := none, takesValue := false }]

inductive CommandOption where
  | form
  | type
  | existing
  | help
  deriving DecidableEq, Repr

def helpForm : OptionForm CommandOption :=
  { option := .help, long := "help", short := none, takesValue := false }

def fieldsForms : List (OptionForm CommandOption) :=
  [{ option := .form, long := "form", short := some 'f', takesValue := true }, helpForm]

def suggestForms : List (OptionForm CommandOption) :=
  [{ option := .type, long := "type", short := some 't', takesValue := true },
    { option := .existing, long := "existing", short := some 'e', takesValue := true }, helpForm]

/-! ## Reading commands -/

/-- What the arguments of a command come to: a command, a text to show, or nothing that makes
sense. -/
inductive Request where
  | command (c : Command)
  | help (text : String)
  | misused
  deriving DecidableEq, Repr

/-- Reads the arguments of a command: help is shown before anything is checked. -/
def readCommand (forms : List (OptionForm CommandOption)) (help : String)
    (make : Arguments CommandOption → Option Command) (args : List String) : Request :=
  match readArguments? forms true args with
  | none => .misused
  | some found =>
    if occurs .help found.options then .help help
    else match make found with
      | some c => .command c
      | none => .misused

/-- The command that lists types; it takes nothing. -/
def typesCommand? (a : Arguments CommandOption) : Option Command :=
  if a.operands = [] then some .types else none

/-- The command that prints declarations; it takes the name of one type. -/
def fieldsCommand? (a : Arguments CommandOption) : Option Command :=
  match a.operands, lastValue? .form a.options with
  | [type], none => some (.fields type none)
  | [type], some name => (Form.ofName? name).map fun form => .fields type (some form)
  | _, _ => none

/-- The command that shows completions; it takes options only. -/
def suggestCommand? (a : Arguments CommandOption) : Option Command :=
  if a.operands = [] then
    some (.suggest (lastValue? .type a.options) (allValues .existing a.options))
  else none

def commandReader? : String → Option (List String → Request)
  | "types" => some (readCommand [helpForm] typesHelp typesCommand?)
  | "fields" => some (readCommand fieldsForms fieldsHelp fieldsCommand?)
  | "suggest" => some (readCommand suggestForms suggestHelp suggestCommand?)
  | _ => none

/-! ## Reading the options of the program -/

structure ProgramOptions where
  root : String
  schemaFile : Option String
  verbose : Bool
  deriving DecidableEq, Repr

/-- What the arguments before the command come to. -/
inductive Preamble where
  | options (o : ProgramOptions) (rest : List String)
  | shown (text : String)
  | misused
  | failed (e : OsError)
  deriving DecidableEq, Repr

/-- The text that the first option for help or version shows. -/
def shownText? (found : List (Found ProgramOption)) : Option String :=
  found.findSome? fun f =>
    match f.option with
    | .help => some helpText
    | .version => some versionText
    | _ => none

def ProgramOptions.ofFound (found : List (Found ProgramOption)) : ProgramOptions where
  root := (lastValue? .root found).getD "."
  schemaFile := lastValue? .schemaFile found
  verbose := occurs .verbose found

def Environment.hasRoot (env : Environment) (root : String) : Except OsError Bool :=
  if root = "" then .ok false
  else env.storage.hasDirectory (env.directory.join (Path.parse root))

/-- Reads the options of the program. The root has to be a directory. -/
def readPreamble (env : Environment) (args : List String) : Preamble :=
  match readArguments? programForms false args with
  | none => .misused
  | some found =>
    match shownText? found.options with
    | some text => .shown text
    | none =>
      let options := ProgramOptions.ofFound found.options
      match env.hasRoot options.root with
      | .error e => .failed e
      | .ok true => .options options found.operands
      | .ok false => .misused

/-! ## Running -/

/-- The settings: the schema file of the options, else what the variables say. -/
def settingsOf (env : Environment) (o : ProgramOptions) : Except (List Settings.Problem) Settings :=
  Settings.build (Settings.Choice.ofEnvironment
    (env.bindings.map fun (name, value) => (name, some (.text value)))
    [(Setting.schemaFile.name, o.schemaFile.map .text)])

/-- The host of a run: its workspace is the root directory, and times are those of the files. -/
def hostOf (env : Environment) (o : ProgramOptions) : Except OsError Host := do
  let workspace ← Workspace.directory env.directory o.root
  return { storage := env.storage, clock := .files, workspace := some workspace }

/-- What comes of a command with its arguments, once the options of the program are read. -/
def runCommand (env : Environment) (o : ProgramOptions) (reader : List String → Request)
    (args : List String) : Result :=
  match settingsOf env o, hostOf env o with
  | .error _, _ => .misused
  | .ok _, .error e => .failed e
  | .ok settings, .ok host =>
    match reader args with
    | .misused => .misused
    | .help text => .shown text
    | .command c => perform host settings o.verbose c

/-- What comes of a list of arguments. A name that is no command may still be an option for help or
version, written behind two lone dashes. -/
def run (env : Environment) (args : List String) : Result :=
  match readPreamble env args with
  | .misused => .misused
  | .shown text => .shown text
  | .failed e => .failed e
  | .options _ [] => .misused
  | .options o (name :: rest) =>
    match commandReader? name with
    | some reader => runCommand env o reader rest
    | none =>
      -- no command of that name; what is read again cannot be a second command
      match readPreamble env (name :: rest) with
      | .shown text => .shown text
      | .failed e => .failed e
      | _ => .misused

/-! ## What a run looks at -/

def variableNames : List String :=
  [Setting.schemaFile, .target, .logLevel].map Setting.variableName

/-- The paths that a run may look at: the root, and the schema file below it. -/
def pathsOf (env : Environment) (args : List String) : List Path :=
  match readArguments? programForms false args with
  | none => []
  | some found =>
    let options := ProgramOptions.ofFound found.options
    let root := env.directory.join (Path.parse options.root)
    match settingsOf env options with
    | .error _ => [root]
    | .ok settings =>
      [root, (env.directory.resolve (Path.parse options.root)).join
        (Path.parse settings.schemaFile)]

end CommandLine

end SchemaCompletion

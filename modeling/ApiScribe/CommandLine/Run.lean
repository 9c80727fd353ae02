import ApiScribe.CommandLine.Arguments
import ApiScribe.Document.File
import ApiScribe.Delivery

set_option autoImplicit false

/-! # Running the program

The whole program as a function of its arguments and the file system. `generate` reads a schema from
a file and writes its client to a file or to standard output; `template` shows the expression and
the arguments of a URL template. The files that `generate` names are looked at before anything is
done, the output first.

A schema that cannot be read and a template that is malformed end the program with status 1 and a
message, and nothing is written then. Unpaired halves are shown on standard error as their escapes.
When the client cannot be written to its file, or holds a half and so cannot be shown, the failure
is part of the outcome. -/

namespace ApiScribe.CommandLine

/-- What a run leaves behind. -/
structure Outcome where
  /-- The status that the program ends with. -/
  status : Nat
  /-- The text on standard output. -/
  output : String
  /-- The text on standard error. -/
  errors : String
  /-- The failure that ended the program without a report, if one did. -/
  failure : Option DeliveryError
  /-- All files and directories afterwards. -/
  files : FileSystem

/-! ## Options of the commands -/

/-- Shows how a command is used. -/
def helpOption : OptionSpec := ⟨["--help"], false⟩

/-- Tells the events of the run. -/
def verboseOption : OptionSpec := ⟨["-v", "--verbose"], false⟩

/-- Names the file that the client is written to. -/
def outputOption : OptionSpec := ⟨["-o", "--output"], true⟩

/-- Leaves out the import of the library that sends requests. -/
def noImportOption : OptionSpec := ⟨["--no-import"], false⟩

/-- The options that a command takes. -/
def Command.options : Command → List OptionSpec
  | .program => [verboseOption, helpOption]
  | .generate => [outputOption, noImportOption, helpOption]
  | .template => [helpOption]

/-- The name of the one argument that a command takes. -/
def Command.argumentName : Command → String
  | .program => "COMMAND"
  | .generate => "SCHEMA_PATH"
  | .template => "URL"

/-- Whether an option is set. -/
def isSet (settings : List Setting) (option : OptionSpec) : Bool :=
  settings.any fun setting => setting.option == option

/-- The value that an option is set to last. -/
def lastValue? (settings : List Setting) (option : OptionSpec) : Option String :=
  (settings.reverse.find? fun setting => setting.option == option).bind Setting.value

/-! ## Ends of a run -/

/-- The end of a run in which the arguments were not understood. -/
def refuseArguments (fs : FileSystem) (command : Command) (problem : Problem) : Outcome :=
  ⟨2, "", problem.report command, none, fs⟩

/-- The end of a run that was asked for the usage of a command. -/
def showUsage (fs : FileSystem) (command : Command) : Outcome := ⟨0, command.usage, "", none, fs⟩

/-- The end of a run that met an error, after the lines told before it. -/
def fail (fs : FileSystem) (told : String) (message : LooseText) : Outcome :=
  ⟨1, "", told ++ errorLine message, none, fs⟩

/-- The end of a run that a failure ended, after the lines told before it. -/
def abort (fs : FileSystem) (told : String) (failure : DeliveryError) : Outcome :=
  ⟨1, "", told, some failure, fs⟩

/-- The end of a run that shows a text, after the lines told before it. Nothing is shown of a text
    that has no encoding. -/
def echo (fs : FileSystem) (told : String) (text : LooseText) : Outcome :=
  match Text.asPlain (Text.echoed text) with
  | .error fault => abort fs told (.encoding fault)
  | .ok text => ⟨0, text, told, none, fs⟩

/-- The lines of the events, if they are to be told. -/
def told (verbose : Bool) (events : List Event) : String :=
  if verbose then
    String.join (events.map fun event => Text.escapeHalves (.ofMarked event.line) ++ "\n")
  else ""

/-! ## The command `template` -/

/-- Shows the expression of a URL template and, on a line each, its arguments. -/
def runTemplate (fs : FileSystem) (url : String) : Outcome :=
  match Template.pieces url with
  | .error e => fail fs "" e.message
  | .ok pieces =>
    let lines := Template.expression pieces ::
      (Template.arguments pieces).map fun argument => argument.name ++ ": " ++ argument.type
    ⟨0, String.join (lines.map fun line => Text.stripControls line ++ "\n"), "", none, fs⟩

/-! ## The command `generate` -/

/-- What `generate` is asked for. -/
structure Job where
  schema : String
  output : Option String
  importsTransport : Bool
  verbose : Bool

/-- Generates the client of the schema in a file. -/
def runGenerate (fs : FileSystem) (job : Job) : Outcome :=
  let source := Path.ofText job.schema
  match Document.load fs source.text {} with
  | .error .embeddedNul => abort fs "" (.path ⟨source, .embeddedNul⟩)
  | .error (.refused e) => fail fs "" (.ofMarked e.message)
  | .ok (schema, _, loaded) =>
    match Client.source { importsTransport := job.importsTransport } schema with
    | .error e => fail fs (told job.verbose [loaded]) (.ofMarked e.message)
    | .ok (text, events) =>
      let events := loaded :: events
      match job.output with
      | none => echo fs (told job.verbose events) (.ofMarked text)
      | some output =>
        let target := Path.ofText output
        match fs.deliver target (.ofMarked text) with
        | (.error failure, fs) => abort fs (told job.verbose events) failure
        | (.ok written, fs) =>
          ⟨0, "", told job.verbose (events ++ [written])
            ++ Text.stripControls ("Generated " ++ target.text) ++ "\n", none, fs⟩

/-- Why a file that is named among the arguments is not accepted. -/
inductive FileProblem where
  | usage (problem : Problem)
  | failure (failure : FileSystem.PathError)

/-- Looks at a file that is named among the arguments: it may not be a directory, and it has to
    exist if it is needed. -/
def checkFile (fs : FileSystem) (parameter file : String) (needed : Bool) :
    Except FileProblem Unit :=
  match fs.status (Route.ofText file) with
  | .error .embeddedNul => .error (.failure ⟨Path.ofText file, .embeddedNul⟩)
  | .error (.refused _) =>
    if needed then .error (.usage (.fileMissing parameter file)) else .ok ()
  | .ok .directory => .error (.usage (.fileIsDirectory parameter file))
  | .ok (.file _) => .ok ()

/-- Looks at the output, if one is named. -/
def checkOutput (fs : FileSystem) : Option String → Except FileProblem Unit
  | none => .ok ()
  | some file => checkFile fs "'-o' / '--output'" file false

/-- The end of a run in which a named file was not accepted. -/
def refuseFile (fs : FileSystem) : FileProblem → Outcome
  | .usage problem => refuseArguments fs .generate problem
  | .failure failure => abort fs "" (.path failure)

/-- Generates what the settings and arguments of `generate` ask for, once they are checked. -/
def startGenerate (fs : FileSystem) (verbose : Bool) (settings : List Setting)
    (arguments : List String) : Outcome :=
  let output := lastValue? settings outputOption
  match checkOutput fs output with
  | .error problem => refuseFile fs problem
  | .ok () =>
    match arguments with
    | [] => refuseArguments fs .generate (.missingArgument Command.generate.argumentName)
    | schema :: extra =>
      match checkFile fs "'SCHEMA_PATH'" schema true with
      | .error problem => refuseFile fs problem
      | .ok () =>
        if extra.isEmpty then
          runGenerate fs
            { schema, output, importsTransport := !isSet settings noImportOption, verbose }
        else refuseArguments fs .generate (.extraArguments extra)

/-- Shows the template that the arguments of `template` name. -/
def startTemplate (fs : FileSystem) : List String → Outcome
  | [] => refuseArguments fs .template (.missingArgument Command.template.argumentName)
  | [url] => runTemplate fs url
  | _ :: extra => refuseArguments fs .template (.extraArguments extra)

/-! ## The program -/

/-- Runs a command on its own arguments. -/
def runCommand (fs : FileSystem) (verbose : Bool) (command : Command) (arguments : List String) :
    Outcome :=
  match readArguments command.options true arguments with
  | .error problem => refuseArguments fs command problem
  | .ok (settings, others) =>
    if isSet settings helpOption then showUsage fs command
    else
      match command with
      | .program => showUsage fs command
      | .generate => startGenerate fs verbose settings others
      | .template => startTemplate fs others

/-- The end of a run whose command is not known. A word with a dash in front, which two dashes kept
    from being read as an option, is taken for an option after all. -/
def refuseCommand (fs : FileSystem) (name : String) (arguments : List String) : Outcome :=
  match readArguments Command.program.options false (name :: arguments) with
  | .error problem => refuseArguments fs .program problem
  | .ok (settings, _) =>
    if isSet settings helpOption then showUsage fs .program
    else
      refuseArguments fs .program (.noSuchCommand name (closeMatches name ["generate", "template"]))

/-- The files that a run on these arguments may read or write. -/
def namedFiles (arguments : List String) : List String :=
  match readArguments Command.program.options false arguments with
  | .ok (_, name :: arguments) =>
    match Command.ofName? name, readArguments Command.generate.options true arguments with
    | some .generate, .ok (settings, others) =>
      others.take 1 ++ (lastValue? settings outputOption).toList
    | _, _ => []
  | _ => []

/-- Runs the program on its arguments. -/
def run (fs : FileSystem) (arguments : List String) : Outcome :=
  match readArguments Command.program.options false arguments with
  | .error problem => refuseArguments fs .program problem
  | .ok (settings, others) =>
    if isSet settings helpOption then showUsage fs .program
    else
      match others with
      | [] =>
        if arguments.isEmpty then ⟨2, "", Command.program.usage, none, fs⟩
        else refuseArguments fs .program .missingCommand
      | name :: arguments =>
        match Command.ofName? name with
        | some command => runCommand fs (isSet settings verboseOption) command arguments
        | none => refuseCommand fs name arguments

end ApiScribe.CommandLine

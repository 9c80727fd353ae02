import ApiScribe.CommandLine.Suggestion
import ApiScribe.Text.Ansi
import ApiScribe.Text.Printed

set_option autoImplicit false

/-! # Commands and usage errors

The program has two commands below a common one. When the arguments of a command are not as it
takes them, the message says how it is used and what is wrong. -/

namespace ApiScribe.CommandLine

/-- The program itself and its commands. -/
inductive Command where
  | program
  | generate
  | template
deriving DecidableEq, Repr

/-- The commands that can be given to the program. -/
def Command.ofName? (name : String) : Option Command :=
  if name = "generate" then some .generate
  else if name = "template" then some .template
  else none

/-- The words that call a command. -/
def Command.call : Command → String
  | program => "clientgen"
  | generate => "clientgen generate"
  | template => "clientgen template"

/-- What follows the words that call a command. -/
def Command.shape : Command → String
  | program => "[OPTIONS] COMMAND [ARGS]..."
  | generate => "[OPTIONS] SCHEMA_PATH"
  | template => "[OPTIONS] URL"

/-- The line that says how a command is used. -/
def Command.usage (command : Command) : String :=
  "Usage: " ++ command.call ++ " " ++ command.shape ++ "\n"

/-- What is wrong with the arguments of a command. -/
inductive Problem where
  | noSuchOption (name : String) (close : List String)
  | valueMissing (option : String)
  | valueUnwanted (option : String)
  | missingArgument (name : String)
  | extraArguments (arguments : List String)
  | missingCommand
  | noSuchCommand (name : String) (close : List String)
  | fileMissing (parameter file : String)
  | fileIsDirectory (parameter file : String)
deriving DecidableEq, Repr

/-- Close words as a hint. -/
def hint : List String → String
  | [] => ""
  | [word] => " Did you mean " ++ Text.printed word ++ "?"
  | words => " (Did you mean one of: " ++ ", ".intercalate (words.map Text.printed) ++ "?)"

/-- The wording of a problem. -/
def Problem.message : Problem → String
  | noSuchOption name close => "No such option " ++ Text.printed name ++ "." ++ hint close
  | valueMissing option => "Option " ++ Text.printed option ++ " requires an argument."
  | valueUnwanted option => "Option " ++ Text.printed option ++ " does not take a value."
  | missingArgument name => "Missing argument " ++ Text.printed name ++ "."
  | extraArguments arguments =>
    "Got unexpected extra argument" ++ (if arguments.length = 1 then " (" else "s (")
      ++ " ".intercalate arguments ++ ")"
  | missingCommand => "Missing command."
  | noSuchCommand name close => "No such command " ++ Text.printed name ++ "." ++ hint close
  | fileMissing parameter file =>
    "Invalid value for " ++ parameter ++ ": File " ++ Text.printed file ++ " does not exist."
  | fileIsDirectory parameter file =>
    "Invalid value for " ++ parameter ++ ": File " ++ Text.printed file ++ " is a directory."

/-- A problem with the value of an option is reported without the usage of the command. -/
def Problem.showsUsage : Problem → Bool
  | valueMissing _ => false
  | valueUnwanted _ => false
  | _ => true

/-- The message of an error, on a line of its own. -/
def errorLine (message : LooseText) : String :=
  "Error: " ++ Text.escapeHalves (Text.echoed message) ++ "\n"

/-- The report of a problem with the arguments of a command. -/
def Problem.report (problem : Problem) (command : Command) : String :=
  (if problem.showsUsage then
    command.usage ++ "Try '" ++ command.call ++ " --help' for help.\n\n"
  else "") ++ errorLine problem.message

end ApiScribe.CommandLine

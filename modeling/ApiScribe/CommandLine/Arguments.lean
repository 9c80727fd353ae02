import ApiScribe.CommandLine.Usage

set_option autoImplicit false

/-! # Options among arguments

An argument that starts with a dash and is not the dash alone gives options. It is matched as a
whole first, up to an equals sign, behind which the value of the option stands. With a single dash
it is otherwise taken apart: each letter is an option, and the first that takes a value takes the
rest of the argument for it. A value that is not given in the argument is the next argument,
whatever it looks like. Two dashes alone end the options. -/

namespace ApiScribe.CommandLine

/-- An option: its names, and whether it takes a value. -/
structure OptionSpec where
  names : List String
  takesValue : Bool
deriving DecidableEq, Repr

/-- An occurrence of an option. -/
structure Setting where
  option : OptionSpec
  value : Option String
deriving DecidableEq, Repr

/-- What one argument gives: settings, and an option whose value is the next argument, with the
    name that it was called by. -/
structure Given where
  settings : List Setting
  pending : Option (OptionSpec × String)

/-- The option of a name. -/
def findOption? (specs : List OptionSpec) (name : String) : Option OptionSpec :=
  specs.find? fun spec => spec.names.contains name

/-- The options that the letters of an argument give. -/
def readLetters (specs : List OptionSpec) : List Char → Except Problem Given
  | [] => .ok ⟨[], none⟩
  | letter :: rest =>
    let name := String.ofList ['-', letter]
    match findOption? specs name with
    | none => .error (.noSuchOption name [])
    | some option =>
      if option.takesValue then
        if rest.isEmpty then .ok ⟨[], some (option, name)⟩
        else .ok ⟨[⟨option, some (String.ofList rest)⟩], none⟩
      else
        match readLetters specs rest with
        | .error problem => .error problem
        | .ok given => .ok { given with settings := ⟨option, none⟩ :: given.settings }

/-- The part of an argument before an equals sign, and the part behind it if there is one. -/
def splitValue (argument : List Char) : List Char × Option (List Char) :=
  let name := argument.takeWhile (· ≠ '=')
  match argument.drop name.length with
  | [] => (name, none)
  | _ :: value => (name, some value)

/-- Whether a name is one of the long ones, which start with two dashes. -/
def isLong (name : String) : Bool := name.toList.take 2 == ['-', '-']

/-- The options that an argument gives. -/
def readOption (specs : List OptionSpec) (argument : List Char) : Except Problem Given :=
  let (name, value) := splitValue argument
  let name := String.ofList name
  match if isLong name then findOption? specs name else none with
  | some option =>
    match option.takesValue, value with
    | true, some value => .ok ⟨[⟨option, some (String.ofList value)⟩], none⟩
    | true, none => .ok ⟨[], some (option, name)⟩
    | false, some _ => .error (.valueUnwanted name)
    | false, none => .ok ⟨[⟨option, none⟩], none⟩
  | none =>
    if argument.take 2 = ['-', '-'] then
      let known := specs.flatMap fun spec => spec.names.filter isLong
      .error (.noSuchOption name (closeMatches name known))
    else readLetters specs (argument.drop 1)

/-- Puts settings in front of those that are read from the arguments behind. -/
def precede (settings : List Setting) :
    Except Problem (List Setting × List String) → Except Problem (List Setting × List String)
  | .error problem => .error problem
  | .ok (further, others) => .ok (settings ++ further, others)

/-- Separates the options from the other arguments, both in order, where the first argument is the
    value of an option if one is pending. Where options may not follow other arguments, the first
    of these ends the options. -/
def readPending (specs : List OptionSpec) (mixed : Bool) (pending : Option (OptionSpec × String)) :
    List String → Except Problem (List Setting × List String)
  | [] =>
    match pending with
    | none => .ok ([], [])
    | some (_, name) => .error (.valueMissing name)
  | argument :: rest =>
    match pending with
    | some (option, _) => precede [⟨option, some argument⟩] (readPending specs mixed none rest)
    | none =>
      if argument = "--" then .ok ([], rest)
      else if argument.toList.take 1 = ['-'] && argument ≠ "-" then
        match readOption specs argument.toList with
        | .error problem => .error problem
        | .ok given => precede given.settings (readPending specs mixed given.pending rest)
      else if mixed then
        match readPending specs mixed none rest with
        | .error problem => .error problem
        | .ok (settings, others) => .ok (settings, argument :: others)
      else .ok ([], argument :: rest)

/-- Separates the options from the other arguments. -/
def readArguments (specs : List OptionSpec) (mixed : Bool) (arguments : List String) :
    Except Problem (List Setting × List String) :=
  readPending specs mixed none arguments

end ApiScribe.CommandLine

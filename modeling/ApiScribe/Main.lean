import ApiScribe.CommandLine.Run

set_option autoImplicit false

/-! # The program on a machine

What the run needs of the machine's files is looked up first, the program is run on that picture,
and the entries that the run made or changed are then made on the machine. -/

namespace ApiScribe

/-- The text of a location on the machine. -/
def machinePath (location : Location) : String := "/" ++ Route.text location

/-- What stands at a location whose containing directory exists. -/
def inspect (location : Location) : IO (Option Entry) := do
  try
    return some (.file (← IO.FS.readBinFile (machinePath location)))
  catch e =>
    match e with
    | .inappropriateType .. => return some .directory
    | _ => return none

/-- Looks up every entry that a route passes on its way from a location. -/
def survey (fs : FileSystem) (here : Location) : Route → IO FileSystem
  | [] => return fs
  | name :: rest => do
    if name = "" ∨ name = "." then survey fs here rest
    else if name = ".." then survey fs here.dropLast rest
    else
      let next := here ++ [name]
      match ← inspect next with
      | some (.file content) => return fs.put next (.file content)
      | some .directory => survey (fs.put next .directory) next rest
      | none => survey fs next rest

/-- The part of the machine's files that the paths lead through. -/
def picture (paths : List String) : IO FileSystem := do
  let current ← IO.currentDir
  let names := (Path.ofText current.toString).names
  let mut fs ← survey ⟨[], names⟩ [] names
  for path in paths do
    let route := Route.ofText path
    fs ← survey fs (if path.toList.take 1 = ['/'] then [] else names) route
  return fs

/-- Makes the entries on the machine that are new or different. -/
def commit (before after : FileSystem) : IO Unit := do
  for (location, entry) in after.entries do
    match entry, before.entries.get? location with
    | .directory, none => IO.FS.createDir (machinePath location)
    | .directory, some _ => pure ()
    | .file content, some (.file old) =>
      if content != old then IO.FS.writeBinFile (machinePath location) content
    | .file content, _ => IO.FS.writeBinFile (machinePath location) content

end ApiScribe

/-- Runs the program on the arguments of the command line. -/
def main (arguments : List String) : IO UInt32 := do
  let before ← ApiScribe.picture (ApiScribe.CommandLine.namedFiles arguments)
  let outcome := ApiScribe.CommandLine.run before arguments
  ApiScribe.commit before outcome.files
  IO.print outcome.output
  IO.eprint outcome.errors
  if let some failure := outcome.failure then IO.eprintln failure.message
  return outcome.status.toUInt32

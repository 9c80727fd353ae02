import ApiScribe.FileSystem.Path
import ApiScribe.Table

set_option autoImplicit false

/-! # A file system

A finite tree of directories and regular files without links and with all permissions. An entry is
known by its location, the names that lead to it from the root; the root itself is a directory. A
route is followed step by step, from the root if it starts with a slash and otherwise from the
working directory, and every step but the last has to lead to a directory. -/

namespace ApiScribe

/-- The names that lead from the root to an entry. -/
abbrev Location := List String

/-- What stands at a location. -/
inductive Entry where
  | file (content : ByteArray)
  | directory

/-- All entries, and the directory in which routes without a slash in front start. -/
structure FileSystem where
  entries : Table Location Entry
  workingDirectory : Location

namespace FileSystem

/-! ## Failures -/

/-- Why the system refuses an operation. -/
inductive Failure where
  | missing
  | exists
  | notDirectory
  | isDirectory
  | nameTooLong
deriving DecidableEq, Repr

/-- The wording of a failure. -/
def Failure.message : Failure → String
  | missing => "No such file or directory"
  | .exists => "File exists"
  | notDirectory => "Not a directory"
  | isDirectory => "Is a directory"
  | nameTooLong => "File name too long"

/-- The number of a failure. -/
def Failure.number : Failure → Nat
  | missing => 2
  | .exists => 17
  | notDirectory => 20
  | isDirectory => 21
  | nameTooLong => 36

/-- Why an operation on a path fails: the path holds a NUL and is not even tried, or the system
    refuses. -/
inductive AccessError where
  | embeddedNul
  | refused (failure : Failure)
deriving DecidableEq, Repr

/-! ## Following routes -/

/-- What stands at a location. -/
def get? (fs : FileSystem) (location : Location) : Option Entry :=
  if location.isEmpty then some .directory else fs.entries.get? location

/-- One step from a directory: where it leads, and what stands there. -/
def step (fs : FileSystem) (here : Location) (name : String) :
    Except Failure (Location × Option Entry) :=
  if name = "" ∨ name = "." then .ok (here, some .directory)
  else if name = ".." then .ok (here.dropLast, some .directory)
  else if 255 < name.utf8ByteSize then .error .nameTooLong
  else .ok (here ++ [name], fs.get? (here ++ [name]))

/-- Where a route leads from a directory, and what stands there. -/
def follow (fs : FileSystem) (here : Location) : Route → Except Failure (Location × Option Entry)
  | [] => .ok (here, some .directory)
  | [last] => fs.step here last
  | name :: rest =>
    match fs.step here name with
    | .error failure => .error failure
    | .ok (next, some .directory) => fs.follow next rest
    | .ok (_, some (.file _)) => .error .notDirectory
    | .ok (_, none) => .error .missing

/-- Where a route leads, and what stands there. -/
def locate (fs : FileSystem) (route : Route) : Except AccessError (Location × Option Entry) :=
  if route.any fun name => '\x00' ∈ name.toList then .error .embeddedNul
  else if 4096 ≤ route.text.utf8ByteSize then .error (.refused .nameTooLong)
  else
    match route with
    | [""] => .error (.refused .missing)
    | "" :: rest => (fs.follow [] rest).mapError .refused
    | _ => (fs.follow fs.workingDirectory route).mapError .refused

/-! ## Operations -/

/-- What stands at the end of a route; it has to exist. -/
def status (fs : FileSystem) (route : Route) : Except AccessError Entry :=
  match fs.locate route with
  | .error e => .error e
  | .ok (_, some entry) => .ok entry
  | .ok (_, none) => .error (.refused .missing)

/-- Whether a route leads to a directory. -/
def isDirectory (fs : FileSystem) (route : Route) : Bool :=
  match fs.status route with
  | .ok .directory => true
  | _ => false

/-- The content of a file. -/
def readFile (fs : FileSystem) (route : Route) : Except AccessError ByteArray :=
  match fs.status route with
  | .error e => .error e
  | .ok .directory => .error (.refused .isDirectory)
  | .ok (.file content) => .ok content

/-- Puts an entry at a location, in place of what stands there. -/
def put (fs : FileSystem) (location : Location) (entry : Entry) : FileSystem :=
  { fs with entries := fs.entries.insert location entry }

theorem get?_put_self (fs : FileSystem) {location : Location} (h : location ≠ [])
    (entry : Entry) : (fs.put location entry).get? location = some entry := by
  simp [get?, put, h, Table.get?_insert_self]

theorem get?_put_of_ne (fs : FileSystem) {location other : Location} (h : other ≠ location)
    (entry : Entry) : (fs.put location entry).get? other = fs.get? other := by
  simp [get?, put, Table.get?_insert_of_ne h]

/-- Writes a file, a new one or in place of the old content. -/
def writeFile (fs : FileSystem) (route : Route) (content : ByteArray) :
    Except AccessError FileSystem :=
  match fs.locate route with
  | .error e => .error e
  | .ok (_, some .directory) => .error (.refused .isDirectory)
  | .ok (location, _) => .ok (fs.put location (.file content))

/-- Makes a directory where nothing stands. -/
def makeDirectory (fs : FileSystem) (route : Route) : Except AccessError FileSystem :=
  match fs.locate route with
  | .error e => .error e
  | .ok (_, some _) => .error (.refused .exists)
  | .ok (location, none) => .ok (fs.put location .directory)

/-- The files below the working directory, by their routes from there, in the order of the texts of
    the routes. -/
def files (fs : FileSystem) : List (String × ByteArray) :=
  let below := fs.entries.filterMap fun (location, entry) =>
    match entry with
    | .directory => none
    | .file content =>
      if fs.workingDirectory.isPrefixOf location then
        some (Route.text (location.drop fs.workingDirectory.length), content)
      else none
  below.mergeSort fun a b => a.1 ≤ b.1

end FileSystem

end ApiScribe

set_option autoImplicit false

/-! # Paths

A path as it is given is a route: the steps between its slashes, some of which may be empty. The
text of a route is the text that it was read from. Where paths are shown or written to they are in
normal form: empty steps and steps `.` are left out, steps `..` are kept, and so are the slashes in
front, two of them if there are exactly two and otherwise one. -/

namespace ApiScribe

/-- The steps between the slashes of a path, in order. -/
abbrev Route := List String

/-- The parts of a text between its slashes. -/
def splitSlashes : List Char → List (List Char)
  | [] => [[]]
  | c :: rest =>
    match splitSlashes rest with
    | [] => []
    | step :: steps => if c = '/' then [] :: step :: steps else (c :: step) :: steps

/-- The route that a text gives. -/
def Route.ofText (text : String) : Route := (splitSlashes text.toList).map String.ofList

/-- The text of a route. -/
def Route.text (route : Route) : String := "/".intercalate route

/-- A path in normal form: the slashes in front, and the names after them. -/
structure Path where
  slashes : Nat
  names : List String
deriving DecidableEq, Repr

namespace Path

/-- The normal form of the path that a text gives. -/
def ofText (text : String) : Path where
  slashes :=
    match (text.toList.takeWhile (· = '/')).length with
    | 0 => 0
    | 2 => 2
    | _ => 1
  names := (Route.ofText text).filter fun step => step ≠ "" && step ≠ "."

/-- The steps of the path. The path without slashes or names is the working directory. -/
def route (path : Path) : Route :=
  match path.slashes, path.names with
  | 0, [] => ["."]
  | slashes, [] => List.replicate slashes "" ++ [""]
  | slashes, names => List.replicate slashes "" ++ names

/-- The text of the path. -/
def text (path : Path) : String := path.route.text

/-- The path without its last name. -/
def parent (path : Path) : Path := { path with names := path.names.dropLast }

end Path

end ApiScribe

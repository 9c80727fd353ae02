import ApiScribe.FileSystem.Basic
import ApiScribe.Text.Printed

set_option autoImplicit false

/-! # Making directories with their ancestors

A directory is made after the ancestors that are missing. One that is there already is fine; the
directories made before a failure stay. -/

namespace ApiScribe.FileSystem

/-- A failed operation and the path that it was tried on. -/
structure PathError where
  path : Path
  cause : AccessError
deriving DecidableEq, Repr

/-- The wording of the error: the number and the text of the failure and the path. -/
def PathError.message (e : PathError) : String :=
  match e.cause with
  | .embeddedNul => "embedded null byte"
  | .refused failure =>
    "[Errno " ++ toString failure.number ++ "] " ++ failure.message ++ ": "
      ++ Text.printed e.path.text

/-- Lets pass that a directory cannot be made if it is there. -/
def allowExisting (fs : FileSystem) (path : Path) (cause : AccessError) :
    Except PathError Unit × FileSystem :=
  if fs.isDirectory path.route then (.ok (), fs) else (.error ⟨path, cause⟩, fs)

/-- Makes the directory whose names are given from the last to the first, and its ancestors. -/
def makeDirectoriesBackwards (fs : FileSystem) (slashes : Nat) :
    List String → Except PathError Unit × FileSystem
  | [] =>
    let path : Path := ⟨slashes, []⟩
    match fs.makeDirectory path.route with
    | .ok fs => (.ok (), fs)
    | .error cause => fs.allowExisting path cause
  | last :: before =>
    let path : Path := ⟨slashes, (last :: before).reverse⟩
    match fs.makeDirectory path.route with
    | .ok fs => (.ok (), fs)
    | .error (.refused .missing) =>
      match fs.makeDirectoriesBackwards slashes before with
      | (.error e, fs) => (.error e, fs)
      | (.ok (), fs) =>
        match fs.makeDirectory path.route with
        | .ok fs => (.ok (), fs)
        | .error cause => fs.allowExisting path cause
    | .error cause => fs.allowExisting path cause

/-- Makes the directory at a path, unless it is there, and all directories that lead to it. -/
def makeDirectories (fs : FileSystem) (path : Path) : Except PathError Unit × FileSystem :=
  fs.makeDirectoriesBackwards path.slashes path.names.reverse

end ApiScribe.FileSystem

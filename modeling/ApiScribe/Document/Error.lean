import ApiScribe.FileSystem.Basic
import ApiScribe.Json.Printed
import ApiScribe.Json.Syntax
import ApiScribe.Text.Utf8

set_option autoImplicit false

/-! # Why a document is refused

A document is refused for a fault of one of its nodes, which is named by the keys that lead to it,
or because the root is no object, or because its file cannot be read, decoded or parsed. The wording
is a marked text, for it may hold keys of the document. -/

namespace ApiScribe.Document

/-- The keys that lead from the root to a node. -/
abbrev NodePath := List String

/-- What is wrong with a node. -/
inductive Fault where
  | fieldNotText (field : String)
  | childrenNotObject
  | notObject
  | endpointAndGroup
  | unsupportedMethod (value : Json)
  | bodyOfGet
  | queryBeside (verb : String)
  | fieldsNotTexts (field : String)

/-- The wording of a fault. -/
def Fault.message : Fault → String
  | fieldNotText field => "'" ++ field ++ "' must be a string"
  | childrenNotObject => "'apis' must be an object"
  | notObject => "expected an object"
  | endpointAndGroup => "node has both 'method' and 'apis'"
  | unsupportedMethod value => "unsupported method " ++ value.printed
  | bodyOfGet => "GET endpoints take 'params', not 'data'"
  | queryBeside verb => verb ++ " endpoints take 'data', not 'params'"
  | fieldsNotTexts field => "'" ++ field ++ "' must map names to type strings"

/-- Why a document is refused. -/
inductive Error where
  | rootNotObject
  | inNode (path : NodePath) (fault : Fault)
  | unreadable (file : String) (failure : FileSystem.Failure)
  | undecodable (file : String) (fault : Text.Utf8Fault)
  | unparsable (file : String) (error : Json.SyntaxError)

/-- The dotted path of a child, from that of its container and its own key. The root has an empty
    path, and behind an empty path the key stands alone. -/
def dottedChild (container key : String) : String :=
  if container = "" then key else container ++ "." ++ key

/-- The dotted path of a node, put together from the root on. -/
def dotted (path : NodePath) : String := path.foldl dottedChild ""

/-- The dotted path that an error reports. A fault of the children reports none where the dotted
    path would be empty. -/
def Error.path? : Error → Option String
  | inNode path .childrenNotObject => if dotted path = "" then none else some (dotted path)
  | inNode path _ => some (dotted path)
  | _ => none

/-- What is wrong, without the place. -/
def Error.reason : Error → String
  | rootNotObject => "schema document must be an object"
  | inNode _ fault => fault.message
  | unreadable file failure => "cannot read " ++ LooseText.marked file ++ ": " ++ failure.message
  | undecodable file fault => "cannot decode " ++ LooseText.marked file ++ ": " ++ fault.message
  | unparsable file error => "invalid JSON in " ++ LooseText.marked file ++ ": " ++ error.message

/-- A reason behind the path it belongs to; a path that is empty or absent is left out. -/
def locatedReason (path : Option String) (reason : String) : String :=
  match path with
  | none => reason
  | some path => if path = "" then reason else path ++ ": " ++ reason

/-- The wording of an error. -/
def Error.message (e : Error) : String := locatedReason e.path? e.reason

end ApiScribe.Document

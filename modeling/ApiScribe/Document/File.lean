import ApiScribe.Document.Reader
import ApiScribe.Event
import ApiScribe.Json.Reader
import ApiScribe.Text.Lines

set_option autoImplicit false

/-! # Schemas from files

A file is read as a whole, decoded as UTF-8, its line breaks are unified, and the text is parsed and
read as a document. Whatever goes wrong on the way is an error of the document, but for a path that
cannot even be tried. -/

namespace ApiScribe.Document

/-- Why no schema comes from a file: its path is not one, or the document is refused. -/
inductive FileError where
  | embeddedNul
  | refused (error : Error)

/-- The JSON value that a file holds. -/
def parseFile (fs : FileSystem) (file : String) : Except FileError Json :=
  match fs.readFile (Route.ofText file) with
  | .error .embeddedNul => .error .embeddedNul
  | .error (.refused failure) => .error (.refused (.unreadable file failure))
  | .ok bytes =>
    match Text.decodeUtf8 bytes with
    | .error fault => .error (.refused (.undecodable file fault))
    | .ok text =>
      match Json.read (String.ofList (Text.unifyNewlines text.toList)) with
      | .error error => .error (.refused (.unparsable file error))
      | .ok value => .ok value

/-- The schema that a file describes, all scopes after it, and what is told of it. -/
def load (fs : FileSystem) (file : String) (scopes : Scopes) :
    Except FileError (Schema × Scopes × Event) :=
  match parseFile fs file with
  | .error e => .error e
  | .ok value =>
    match read scopes value with
    | .error e => .error (.refused e)
    | .ok (schema, scopes) => .ok (schema, scopes, .loaded schema.name file)

end ApiScribe.Document

import ApiScribe.Client.Source
import ApiScribe.FileSystem.Directories
import ApiScribe.Text.Utf8

set_option autoImplicit false

/-! # Delivering the text of a client

The text of a client is handed to a receiver, which is known by what a text does to its state. A
place in memory keeps the last text that it received, marked as it is. A file holds the text without
marks as UTF-8, after the directories that lead to it are made. A text that has no encoding is
noticed only when the file is open, and opening it has emptied it. A schema from which no client can
be generated delivers nothing. -/

namespace ApiScribe

/-- A place in memory: the last text that it received. -/
structure Inbox where
  text : Option String := none
deriving DecidableEq, Repr

/-- The place after it received a text. -/
def Inbox.receive (_inbox : Inbox) (text : String) : Inbox := ⟨some text⟩

/-- Why a text is not delivered to a file: an operation on a path has failed, or the text has no
    encoding. -/
inductive DeliveryError where
  | path (error : FileSystem.PathError)
  | encoding (fault : Text.Unencodable)
deriving DecidableEq, Repr

/-- The wording of the error. -/
def DeliveryError.message : DeliveryError → String
  | path error => error.message
  | encoding fault => fault.message

/-- What is in a file once a text has been written to it: the encoding of the text, or nothing if it
    has none. -/
def Text.fileContent (text : LooseText) : ByteArray :=
  match encodeUtf8 text with
  | .ok bytes => bytes
  | .error _ => .empty

/-- How a delivery ends that has got to its file. -/
def endOfWriting (path : Path) (text : LooseText) : Except DeliveryError Event :=
  match Text.encodeUtf8 text with
  | .ok bytes => .ok (.written path.text bytes.size)
  | .error fault => .error (.encoding fault)

/-- Writes a text to the file at a path. The directories that lead to it are made first, and those
    that were made stay when the file cannot be written. -/
def FileSystem.deliver (fs : FileSystem) (path : Path) (text : LooseText) :
    Except DeliveryError Event × FileSystem :=
  match fs.makeDirectories path.parent with
  | (.error e, fs) => (.error (.path e), fs)
  | (.ok (), fs) =>
    match fs.writeFile path.route (Text.fileContent text) with
    | .error cause => (.error (.path ⟨path, cause⟩), fs)
    | .ok fs => (endOfWriting path text, fs)

/-- Generates a client and hands its text to a receiver in some state, which `receive` changes. A
    schema without a client hands nothing over. -/
def Client.deliver {σ : Type} (receive : σ → String → σ) (options : Client.Options)
    (schema : Schema) (receiver : σ) : Except Client.Unsupported (String × List Event) × σ :=
  match Client.source options schema with
  | .error e => (.error e, receiver)
  | .ok (text, events) => (.ok (text, events), receive receiver text)

/-- Generates a client into a place in memory, which stays as it was if the schema has no client. -/
def Client.publish (options : Client.Options) (schema : Schema) (inbox : Inbox) :
    Except Client.Unsupported (String × List Event) × Inbox :=
  Client.deliver Inbox.receive options schema inbox

end ApiScribe

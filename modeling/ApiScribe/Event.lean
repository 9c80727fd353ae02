import ApiScribe.Text.Loose

set_option autoImplicit false

/-! # Events

What happens on the way from a document to a client is told as a list of events, in order. Each has
one line of text: its level, the part of the program that it comes from, and a message. Names and
keys are marked texts and a path is a plain one, so the path is marked where the line is put
together. -/

namespace ApiScribe

/-- Something that is told while a client is made. -/
inductive Event where
  /-- The schema of this name was read from the file at `path`. -/
  | loaded (name : Option String) (path : String)
  /-- The endpoint under `key` became a method of the class `owner`. -/
  | addedEndpoint (verb key owner : String)
  /-- The group under `key` became the class `name` with a getter in the class `owner`. -/
  | addedGroup (name owner key : String)
  /-- The whole module was built. -/
  | built (classes : Nat) (root : String)
  /-- The text was written to the file at `path`. -/
  | written (path : String) (bytes : Nat)
deriving DecidableEq, Repr

/-- The line of an event. -/
def Event.line : Event → String
  | loaded name path =>
    let shown := name.getD "None"
    let path := LooseText.marked path
    s!"INFO clientgen.loader: Loaded schema {shown} from {path}"
  | addedEndpoint verb key owner =>
    s!"DEBUG clientgen.generator: Adding {verb} {key} to {owner}"
  | addedGroup name owner key =>
    s!"DEBUG clientgen.generator: Adding API set {name} as {owner}.{key}"
  | built classes root => s!"DEBUG clientgen.generator: Built {classes} classes for {root}"
  | written path bytes =>
    let path := LooseText.marked path
    s!"INFO clientgen.sinks: Generated {path} ({bytes} bytes)"

end ApiScribe

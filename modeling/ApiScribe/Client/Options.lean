import ApiScribe.Schema.Basic

set_option autoImplicit false

/-! # Options and class names

The options fill in what a schema leaves open: the name of the root class, the address of an
endpoint, and the ending of a class name that is made from a key. -/

namespace ApiScribe.Client

/-- What a client is generated with. -/
structure Options where
  /-- The name of the root class of a schema without a name. -/
  rootName : String := "XSClient"
  /-- The address of an endpoint without one. -/
  missingUrl : String := "TODO"
  /-- The ending of a class name that is made from a key. -/
  groupSuffix : String := "APISet"
  /-- Whether the module imports the library that sends its requests. -/
  importsTransport : Bool := true
deriving DecidableEq, Repr

/-- The class name of a group: its own name if it has one, even an empty one, and otherwise the key
    with a capital first letter and the suffix. -/
def groupClassName (key : String) (name : Option String) (suffix : String) : String :=
  match name with
  | some name => name
  | none => Text.upperFirst key ++ suffix

/-- The class name of the root. -/
def Options.rootClassName (options : Options) (schema : Schema) : String :=
  schema.name.getD options.rootName

end ApiScribe.Client

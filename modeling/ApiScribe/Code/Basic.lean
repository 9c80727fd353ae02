import ApiScribe.Template

set_option autoImplicit false

/-! # The parts of a client module

A client module consists of imports and classes. A class has methods, each of which sends one
request, and getters, each of which gives a new instance of another class. -/

namespace ApiScribe.Code

/-- An import of a default binding, of named members, of both, or for its effect alone. -/
structure Import where
  path : String
  defaultBinding : Option String := none
  members : List String := []
deriving DecidableEq, Repr

/-- An asynchronous method that sends one request. Its arguments go into the query (`params`) or
    into the body (`data`) of the request. -/
structure Method where
  url : String
  name : String
  verb : String
  params : List Argument
  data : List Argument
  isPublic : Bool := true
deriving DecidableEq, Repr

/-- All arguments of the method, in order. -/
def Method.arguments (method : Method) : List Argument := method.params ++ method.data

/-- A getter that gives a new instance of the class named `target`. -/
structure Getter where
  name : String
  target : String
  isPublic : Bool := true
deriving DecidableEq, Repr

/-- A class declaration. -/
structure ClassDecl where
  name : String
  exported : Bool := true
  methods : List Method := []
  getters : List Getter := []
deriving DecidableEq, Repr

/-- A source module. -/
structure Module where
  imports : List Import := []
  classes : List ClassDecl := []
deriving DecidableEq, Repr

end ApiScribe.Code

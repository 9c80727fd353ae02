import ApiScribe.Scope
import ApiScribe.Text.Casing

set_option autoImplicit false

/-! # API schemas

A schema describes an HTTP API as a tree. Its inner nodes are groups, its leaves endpoints, and
every node stands under a key of the node that contains it. Each node has a scope of its own, which
in a schema read from a document lies inside the scope of the containing node.

Names, keys and addresses are marked texts (`LooseText.marked`), and so is all that is made of them. -/

namespace ApiScribe

/-- Names of fields with the texts of their types, in declared order. -/
abbrev Fields := Table String String

/-- What an endpoint sends: a query, a body, or a bare request with a verb of its own. -/
inductive Request where
  | get (params : Option Fields)
  | post (data : Option Fields)
  | put (data : Option Fields)
  | custom (verb : String)
deriving DecidableEq, Repr

/-- The verb of the request. -/
def Request.verb : Request → String
  | get _ => "GET"
  | post _ => "POST"
  | put _ => "PUT"
  | custom verb => verb

/-- The fields that come with the request, wherever they go. -/
def Request.fields? : Request → Option Fields
  | get fields => fields
  | post fields => fields
  | put fields => fields
  | custom _ => none

/-- Whether the fields go into a body. -/
def Request.hasBody : Request → Bool
  | get _ => false
  | post _ => true
  | put _ => true
  | custom _ => false

/-- One endpoint. An address that is not given is filled in when a client is generated. -/
structure Endpoint where
  url : Option String
  request : Request
  scope : ScopeId
deriving DecidableEq, Repr

/-- What can be put under a key although no client can be generated from it. -/
inductive Foreign where
  | schema
  | scope
deriving DecidableEq, Repr

/-- The name of a kind of foreign node in messages. -/
def Foreign.label : Foreign → String
  | schema => "Schema"
  | scope => "Context"

/-- A node under a key: an endpoint, a group with its own children, or something foreign. -/
inductive Node where
  | endpoint (endpoint : Endpoint)
  | group (name url : Option String) (scope : ScopeId) (children : List (String × Node))
  | foreign (kind : Foreign)

/-- A whole schema: the node at the root, which is a group that stands under no key. -/
structure Schema where
  name : Option String
  url : Option String
  scope : ScopeId
  children : List (String × Node)

end ApiScribe

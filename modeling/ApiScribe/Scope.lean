import ApiScribe.Json.Basic
import ApiScribe.Text.Printed

set_option autoImplicit false

/-! # Scopes

A scope binds keys to values and may lie inside another scope, its parent. A key that a scope does
not bind itself is looked up in its parent, and so on outwards.

All scopes live in one store, the newest first. The number of a scope says how many scopes are
older than it, and a parent is always sought among the older ones. So every chain of parents is
finite and returns to no scope, whatever the store went through. Every reader is a function of the
chain (`Scopes.chain`). -/

namespace ApiScribe

/-- The number of a scope: how many scopes are older. -/
abbrev ScopeId := Nat

/-- A scope: what it binds itself, and the scope around it. -/
structure Scope where
  values : Table String Json
  parent : Option ScopeId

/-- All scopes there are. -/
structure Scopes where
  newestFirst : List Scope := []

/-- A key that no scope on a chain binds. -/
structure UnboundKey where
  key : String
deriving DecidableEq, Repr

/-- The wording of the error: the key as diagnostics print it. -/
def UnboundKey.message (e : UnboundKey) : String := Text.printed e.key

/-- A name under which no value can be given to a new scope, since the scope around it goes by that
    name there. -/
structure TakenName where
  name : String
deriving DecidableEq, Repr

/-- The wording of the error. -/
def TakenName.message (e : TakenName) : String :=
  "Context.child() got multiple values for argument '" ++ e.name ++ "'"

namespace Scopes

/-! ## Making and changing scopes -/

/-- Makes a scope. -/
def create (scopes : Scopes) (values : Table String Json) (parent : Option ScopeId) :
    ScopeId × Scopes :=
  (scopes.newestFirst.length, ⟨⟨values, parent⟩ :: scopes.newestFirst⟩)

/-- Makes a scope inside another. -/
def createWithin (scopes : Scopes) (parent : ScopeId) (values : Table String Json) :
    ScopeId × Scopes :=
  scopes.create values (some parent)

/-- The name by which a scope goes where another is made inside it. -/
def ownName : String := "self"

/-- Makes a scope inside another, with values that are given by name. -/
def createNamed (scopes : Scopes) (parent : ScopeId) (values : Table String Json) :
    Except TakenName (ScopeId × Scopes) :=
  if values.contains ownName then .error ⟨ownName⟩ else .ok (scopes.createWithin parent values)

/-- Binds a key in the scope itself. -/
def insert (scopes : Scopes) (id : ScopeId) (key : String) (value : Json) : Scopes :=
  if id < scopes.newestFirst.length then
    ⟨scopes.newestFirst.modify (scopes.newestFirst.length - 1 - id) fun scope =>
      { scope with values := scope.values.insert key value }⟩
  else scopes

/-! ## The chain of a scope -/

/-- The scope of a number and the scopes around it, from the inside out. `scopes` is a list of
    `count` scopes, the newest first. -/
def chainAmong (count : Nat) (scopes : List Scope) (id : ScopeId) : List Scope :=
  match count, scopes with
  | count + 1, scope :: older =>
    if id = count then
      scope :: (match scope.parent with
        | some parent => chainAmong count older parent
        | none => [])
    else chainAmong count older id
  | _, _ => []

/-- The scope of a number and the scopes around it, from the inside out. -/
def chain (scopes : Scopes) (id : ScopeId) : List Scope :=
  chainAmong scopes.newestFirst.length scopes.newestFirst id

theorem chainAmong_cons (count : Nat) (scope : Scope) (older : List Scope) (id : ScopeId) :
    chainAmong (count + 1) (scope :: older) id =
      if id = count then
        scope :: (match scope.parent with
          | some parent => chainAmong count older parent
          | none => [])
      else chainAmong count older id := by rw [chainAmong]

/-- A new scope comes before the chain of its parent. -/
theorem chain_create_self (scopes : Scopes) (values : Table String Json) (parent : Option ScopeId) :
    (scopes.create values parent).2.chain (scopes.create values parent).1 =
      ⟨values, parent⟩ :: (match parent with
        | some parent => scopes.chain parent
        | none => []) := by
  simp [create, chain, chainAmong_cons]

/-- A new scope changes no other chain. -/
theorem chain_create_of_ne (scopes : Scopes) (values : Table String Json)
    (parent : Option ScopeId) {id : ScopeId} (h : id ≠ (scopes.create values parent).1) :
    (scopes.create values parent).2.chain id = scopes.chain id := by
  have h : id ≠ scopes.newestFirst.length := h
  simp [create, chain, chainAmong_cons, h]

/-- The number of scopes around a scope. -/
def depth (scopes : Scopes) (id : ScopeId) : Nat := (scopes.chain id).length - 1

/-- The scope around a scope. -/
def parent? (scopes : Scopes) (id : ScopeId) : Option ScopeId :=
  (scopes.chain id).head?.bind Scope.parent

/-! ## Reading bindings -/

/-- The value of a key in the nearest scope of the chain that binds it. -/
def get? (scopes : Scopes) (id : ScopeId) (key : String) : Option Json :=
  (scopes.chain id).findSome? fun scope => scope.values.get? key

/-- The nearest value of a key, or `default` if no scope of the chain binds it. -/
def getD (scopes : Scopes) (id : ScopeId) (key : String) (default : Json) : Json :=
  (scopes.get? id key).getD default

/-- The nearest value of a key, which has to be bound. -/
def get (scopes : Scopes) (id : ScopeId) (key : String) : Except UnboundKey Json :=
  match scopes.get? id key with
  | some value => .ok value
  | none => .error ⟨key⟩

/-- Whether some scope of the chain binds the key. -/
def contains (scopes : Scopes) (id : ScopeId) (key : String) : Bool := (scopes.get? id key).isSome

theorem contains_iff_get (scopes : Scopes) (id : ScopeId) (key : String) :
    scopes.contains id key = true ↔ ∃ value, scopes.get id key = .ok value := by
  unfold contains get
  cases scopes.get? id key <;> simp

end Scopes

end ApiScribe

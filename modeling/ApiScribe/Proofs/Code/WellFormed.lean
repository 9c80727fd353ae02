import ApiScribe.Proofs.Code.Block

set_option autoImplicit false

/-! # Well-formed modules

A module is well-formed if its names are identifiers, its types can stand in a list of parameters,
and the addresses and verbs of its methods have no line break that a literal holds as it is. Paths
of imports can be any text. -/

namespace ApiScribe

open Text (OneLine IsIdentifier isUnescapedBreak)

/-- A text without commas, parentheses and line breaks, and not the empty one. -/
structure IsTypeText (text : String) : Prop where
  ne_empty : text ≠ ""
  plain : ∀ c ∈ text.toList, c ∉ [',', '(', ')']
  oneLine : OneLine text

instance (text : String) : Decidable (IsTypeText text) :=
  have := List.decidableBAll (· ∉ [',', '(', ')']) text.toList
  decidable_of_iff
    (text ≠ "" ∧ (∀ c ∈ text.toList, c ∉ [',', '(', ')']) ∧ OneLine text)
    ⟨fun ⟨a, b, c⟩ => ⟨a, b, c⟩, fun h => ⟨h.ne_empty, h.plain, h.oneLine⟩⟩

/-- A text whose literal stays on one line. -/
def IsLiteralText (text : String) : Prop := ∀ c ∈ text.toList, isUnescapedBreak c = false

instance (text : String) : Decidable (IsLiteralText text) :=
  List.decidableBAll (isUnescapedBreak · = false) text.toList

/-- The name of the argument is an identifier, and its type can stand in a list of parameters. -/
structure Argument.WellFormed (argument : Argument) : Prop where
  name : IsIdentifier argument.name
  type : IsTypeText argument.type

instance (argument : Argument) : Decidable argument.WellFormed :=
  decidable_of_iff (IsIdentifier argument.name ∧ IsTypeText argument.type)
    ⟨fun ⟨a, b⟩ => ⟨a, b⟩, fun h => ⟨h.name, h.type⟩⟩

namespace Code

/-- What the import binds has identifiers for names. Its path can be any text. -/
structure Import.WellFormed (decl : Import) : Prop where
  defaultBinding : ∀ binding ∈ decl.defaultBinding, IsIdentifier binding
  members : ∀ member ∈ decl.members, IsIdentifier member

instance (decl : Import) : Decidable decl.WellFormed :=
  decidable_of_iff ((∀ binding ∈ decl.defaultBinding, IsIdentifier binding) ∧
      ∀ member ∈ decl.members, IsIdentifier member)
    ⟨fun ⟨a, b⟩ => ⟨a, b⟩, fun h => ⟨h.defaultBinding, h.members⟩⟩

/-- The names in the method are identifiers, and the literals of its address and its verb stay on
    one line. -/
structure Method.WellFormed (method : Method) : Prop where
  name : IsIdentifier method.name
  arguments : ∀ argument ∈ method.arguments, argument.WellFormed
  url : IsLiteralText method.url
  verb : IsLiteralText method.verb

instance (method : Method) : Decidable method.WellFormed :=
  decidable_of_iff (IsIdentifier method.name ∧
      (∀ argument ∈ method.arguments, argument.WellFormed) ∧
      IsLiteralText method.url ∧ IsLiteralText method.verb)
    ⟨fun ⟨a, b, c, d⟩ => ⟨a, b, c, d⟩, fun h => ⟨h.name, h.arguments, h.url, h.verb⟩⟩

/-- The getter and the class that it gives have identifiers for names. -/
structure Getter.WellFormed (getter : Getter) : Prop where
  name : IsIdentifier getter.name
  target : IsIdentifier getter.target

instance (getter : Getter) : Decidable getter.WellFormed :=
  decidable_of_iff (IsIdentifier getter.name ∧ IsIdentifier getter.target)
    ⟨fun ⟨a, b⟩ => ⟨a, b⟩, fun h => ⟨h.name, h.target⟩⟩

/-- The class has an identifier for a name, and its members are well-formed. -/
structure ClassDecl.WellFormed (decl : ClassDecl) : Prop where
  name : IsIdentifier decl.name
  methods : ∀ method ∈ decl.methods, method.WellFormed
  getters : ∀ getter ∈ decl.getters, getter.WellFormed

instance (decl : ClassDecl) : Decidable decl.WellFormed :=
  decidable_of_iff (IsIdentifier decl.name ∧ (∀ method ∈ decl.methods, method.WellFormed) ∧
      ∀ getter ∈ decl.getters, getter.WellFormed)
    ⟨fun ⟨a, b, c⟩ => ⟨a, b, c⟩, fun h => ⟨h.name, h.methods, h.getters⟩⟩

/-- The imports and the classes of the module are well-formed. -/
structure Module.WellFormed (unit : Module) : Prop where
  imports : ∀ decl ∈ unit.imports, decl.WellFormed
  classes : ∀ decl ∈ unit.classes, decl.WellFormed

instance (unit : Module) : Decidable unit.WellFormed :=
  decidable_of_iff ((∀ decl ∈ unit.imports, decl.WellFormed) ∧
      ∀ decl ∈ unit.classes, decl.WellFormed)
    ⟨fun ⟨a, b⟩ => ⟨a, b⟩, fun h => ⟨h.imports, h.classes⟩⟩

/-! ## Blocks of well-formed members -/

theorem Method.WellFormed.memberBlock {method : Method} (h : method.WellFormed) :
    memberBlock method.render = "    " ++ method.opening ++ "\n        return axios(" ++
      method.request ++ ");\n    \x7d\n" := by
  have hopening : OneLine method.opening :=
    Method.oneLine_opening h.name fun a ha =>
      ⟨(h.arguments a ha).name, (h.arguments a ha).type.oneLine⟩
  have hrequest : OneLine method.request :=
    Method.oneLine_request (fun a ha => (h.arguments a ha).name)
      ((Text.oneLine_quoted_iff _).2 h.url) ((Text.oneLine_quoted_iff _).2 h.verb)
  exact memberBlock_method hopening hrequest

theorem Getter.WellFormed.memberBlock {getter : Getter} (h : getter.WellFormed) :
    memberBlock getter.render = "    " ++ getter.opening ++ "\n        return new " ++
      getter.target ++ "();\n    \x7d\n" :=
  memberBlock_getter (Getter.oneLine_opening h.name) h.target.oneLine

end Code

end ApiScribe

import ApiScribe.Proofs.Document.Language
import ApiScribe.Proofs.Schema.Branches

set_option autoImplicit false

/-! # What a schema from a document consists of

A document describes groups and endpoints and nothing else, and an endpoint has one of three verbs
(`read_documented`). This is seen from the description alone, without the reader. -/

namespace ApiScribe

/-- Whether a document can describe a node, regardless of what is inside. -/
def Node.isDocumented : Node → Bool
  | .endpoint ⟨_, request, _⟩ => request.verb ∈ ["GET", "POST", "PUT"]
  | .group .. => true
  | .foreign _ => false

/-- A document can describe a node and all inside. -/
def Node.Documented (node : Node) : Prop :=
  node.isDocumented = true ∧
    ∀ path, ∀ branch ∈ node.branches path, ∀ child ∈ branch.children, child.2.isDocumented = true

theorem Node.documented_group {name url : Option String} {scope : ScopeId}
    {children : List (String × Node)} (h : ∀ child ∈ children, child.2.Documented) :
    (Node.group name url scope children).Documented := by
  refine ⟨rfl, fun path branch hbranch child hchild => ?_⟩
  rw [branches] at hbranch
  rcases List.mem_cons.1 hbranch with rfl | hbelow
  · exact (h child hchild).1
  · obtain ⟨inner, hinner, hbelow⟩ := mem_branchesBelow.1 hbelow
    exact (h inner hinner).2 _ branch hbelow child hchild

/-- All nodes of a schema are such that a document can describe them. -/
def Schema.Documented (schema : Schema) : Prop :=
  ∀ branch ∈ schema.branches, ∀ child ∈ branch.children, child.2.isDocumented = true

instance (schema : Schema) : Decidable schema.Documented :=
  inferInstanceAs (Decidable (∀ branch ∈ schema.branches, ∀ child ∈ branch.children,
    child.2.isDocumented = true))

theorem Schema.Documented.allKnown {schema : Schema} (h : schema.Documented) : schema.AllKnown := by
  intro branch hbranch child hchild
  have hdocumented := h branch hbranch child hchild
  cases hnode : child.2 with
  | foreign kind => simp [hnode, Node.isDocumented] at hdocumented
  | _ => rfl

namespace Document

theorem HoldsRequest.verb {members : Json.Members} {request : Request}
    (h : HoldsRequest members request) : request.verb ∈ ["GET", "POST", "PUT"] := by
  cases request with
  | custom verb => exact h.elim
  | _ => simp [Request.verb]

end Document

mutual

theorem Node.documented_of_isDescribedBy {value : Json} : ∀ node : Node,
    node.IsDescribedBy value → node.Documented
  | .endpoint endpoint, h => by
    rw [Node.IsDescribedBy] at h
    obtain ⟨members, -, -, hdescribes⟩ := h
    refine ⟨?_, fun path branch hbranch => ?_⟩
    · simpa [Node.isDocumented] using hdescribes.request.verb
    · simp [Node.branches] at hbranch
  | .group name url scope children, h => by
    rw [Node.IsDescribedBy] at h
    obtain ⟨members, entries, -, -, -, -, -, hchildren⟩ := h
    exact Node.documented_group (documented_of_childrenDescribedBy children hchildren)
  | .foreign kind, h => by
    rw [Node.IsDescribedBy] at h
    exact h.elim

theorem documented_of_childrenDescribedBy {entries : List (LooseText × Json)} :
    ∀ children : List (String × Node), ChildrenDescribedBy children entries →
    ∀ child ∈ children, child.2.Documented
  | [], _ => by simp
  | (key, node) :: children, h => by
    cases entries with
    | nil => exact h.elim
    | cons entry entries =>
      obtain ⟨-, hnode, hchildren⟩ := h
      intro child hchild
      rcases List.mem_cons.1 hchild with rfl | hchild
      · exact node.documented_of_isDescribedBy hnode
      · exact documented_of_childrenDescribedBy children hchildren child hchild

end

theorem Schema.documented_of_isDescribedBy {schema : Schema} {document : Json}
    (h : schema.IsDescribedBy document) : schema.Documented := by
  obtain ⟨members, -, -, -, hchildren⟩ := h
  have hdocumented : ∀ child ∈ schema.children, child.2.Documented := by
    rcases hchildren with ⟨-, hnil⟩ | ⟨entries, -, hchildren⟩
    · simp [hnil]
    · exact documented_of_childrenDescribedBy schema.children hchildren
  rw [Schema.Documented, Schema.branches_eq]
  exact (Node.documented_group hdocumented).2 []

namespace Document

/-- **A document describes groups and endpoints**, and the verb of an endpoint is one of three. -/
theorem read_documented {scopes scopes' : Scopes} {document : Json} {schema : Schema}
    (h : read scopes document = .ok (schema, scopes')) : schema.Documented :=
  Schema.documented_of_isDescribedBy (isDescribedBy_of_read h)

/-- No document describes a foreign node. -/
theorem allKnown_of_read {scopes scopes' : Scopes} {document : Json} {schema : Schema}
    (h : read scopes document = .ok (schema, scopes')) : schema.AllKnown :=
  (read_documented h).allKnown

end Document

end ApiScribe

import ApiScribe.Proofs.Schema.Branches

set_option autoImplicit false

/-! # All nodes in pre-order

A node stands before the nodes inside it, and those stand before the next child of its container. So
the order is not that of the containers with all their children, one container after the other,
although both lists hold the same nodes (`Schema.mem_preorder_iff`). The list has no key paths, so
what holds of all nodes inside a group can be said wherever the group stands. -/

namespace ApiScribe

mutual

/-- The node under a key, and then all nodes in it, every one before those inside it. -/
def Node.preorder (key : String) : Node → List (String × Node)
  | .endpoint endpoint => [(key, .endpoint endpoint)]
  | .group name url scope children =>
    (key, .group name url scope children) :: preorderBelow children
  | .foreign kind => [(key, .foreign kind)]

/-- The children and all nodes in them, each child with what is inside before the next. -/
def preorderBelow : List (String × Node) → List (String × Node)
  | [] => []
  | (key, node) :: rest => node.preorder key ++ preorderBelow rest

end

mutual

/-- The nodes of the list are the node itself and the children of its branches. -/
theorem Node.mem_preorder_iff {entry : String × Node} (path : List String) (key : String) :
    ∀ node : Node, entry ∈ node.preorder key ↔
      entry = (key, node) ∨ ∃ branch ∈ node.branches path, entry ∈ branch.children
  | .endpoint endpoint => by simp [Node.preorder, Node.branches]
  | .foreign kind => by simp [Node.preorder, Node.branches]
  | .group name url scope children => by
    rw [Node.preorder, Node.branches, List.mem_cons, mem_preorderBelow_iff path children]
    simp

theorem mem_preorderBelow_iff {entry : String × Node} (path : List String) :
    ∀ children : List (String × Node), entry ∈ preorderBelow children ↔
      entry ∈ children ∨ ∃ branch ∈ branchesBelow path children, entry ∈ branch.children
  | [] => by simp [preorderBelow, branchesBelow]
  | (key, node) :: rest => by
    rw [preorderBelow, branchesBelow, List.mem_append, node.mem_preorder_iff (path ++ [key]) key,
      mem_preorderBelow_iff path rest]
    simp only [List.mem_cons, List.mem_append, or_and_right, exists_or]
    exact or_or_or_comm ..

end

/-- The nodes of a schema but the root are the children of its containers. -/
theorem Schema.mem_preorder_iff {schema : Schema} {entry : String × Node} :
    entry ∈ preorderBelow schema.children ↔
      ∃ container ∈ schema.branches, entry ∈ container.children := by
  rw [mem_preorderBelow_iff [] schema.children, branches]
  simp [root]

/-- No container holds a foreign node exactly if the list has none. -/
theorem Schema.allKnown_iff {schema : Schema} :
    schema.AllKnown ↔ ∀ entry ∈ preorderBelow schema.children, entry.2.isForeign = false := by
  constructor
  · intro h entry hentry
    obtain ⟨container, hcontainer, hchild⟩ := mem_preorder_iff.1 hentry
    exact h container hcontainer entry hchild
  · intro h container hcontainer child hchild
    exact h child (mem_preorder_iff.2 ⟨container, hcontainer, hchild⟩)

end ApiScribe

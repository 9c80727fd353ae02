import ApiScribe.Proofs.Client.Subtrees
import ApiScribe.Proofs.Document.Places
import ApiScribe.Proofs.Document.Readable
import ApiScribe.Proofs.Schema.Editing

set_option autoImplicit false

/-! # What an edit of the schema changes in the client

A member is added to one container of a tree that was read from a document. The module is built by a
walk over the whole tree that goes on with one list of classes, so an edit could change all that
comes later. It does not: around the classes of the container and of the groups in it the module
stays as it is (`exists_frame`), and what happens to those depends on the member alone
(`edits_are_local`). An endpoint changes one method, in place or at the end of its class. A group
that takes the place of a group changes the target of one getter, and the classes of the one stand
where those of the other stood. -/

namespace ApiScribe

@[simp]
theorem branchesBelow_append (path : List String) (first second : List (String × Node)) :
    branchesBelow path (first ++ second) =
      branchesBelow path first ++ branchesBelow path second := by
  induction first with
  | nil => rfl
  | cons child first ih =>
    obtain ⟨key, node⟩ := child
    rw [List.cons_append, branchesBelow, branchesBelow, ih, List.append_assoc]

@[simp]
theorem endpointsOf_append (first second : List (String × Node)) :
    endpointsOf (first ++ second) = endpointsOf first ++ endpointsOf second := by
  rw [endpointsOf, List.filterMap_append, endpointsOf, endpointsOf]

@[simp]
theorem groupsOf_append (first second : List (String × Node)) :
    groupsOf (first ++ second) = groupsOf first ++ groupsOf second := by
  rw [groupsOf, List.filterMap_append, groupsOf, groupsOf]

@[simp]
theorem endpointsOf_cons_endpoint (key : String) (endpoint : Endpoint)
    (rest : List (String × Node)) :
    endpointsOf ((key, .endpoint endpoint) :: rest) = (key, endpoint) :: endpointsOf rest := rfl

@[simp]
theorem groupsOf_cons_endpoint (key : String) (endpoint : Endpoint)
    (rest : List (String × Node)) :
    groupsOf ((key, .endpoint endpoint) :: rest) = groupsOf rest := rfl

@[simp]
theorem endpointsOf_cons_group (key : String) (name url : Option String) (scope : ScopeId)
    (children rest : List (String × Node)) :
    endpointsOf ((key, .group name url scope children) :: rest) = endpointsOf rest := rfl

@[simp]
theorem groupsOf_cons_group (key : String) (name url : Option String) (scope : ScopeId)
    (children rest : List (String × Node)) :
    groupsOf ((key, .group name url scope children) :: rest) = (key, name) :: groupsOf rest := rfl

namespace Code

/-! ## Members replaced in a class -/

/-- A class with another method in the place of a number. -/
def ClassDecl.setMethod (decl : ClassDecl) (j : Nat) (method : Method) : ClassDecl :=
  { decl with methods := decl.methods.set j method }

/-- A class with one more method at the end. -/
def ClassDecl.addMethod (decl : ClassDecl) (method : Method) : ClassDecl :=
  { decl with methods := decl.methods ++ [method] }

/-- A class with another getter in the place of a number. -/
def ClassDecl.setGetter (decl : ClassDecl) (j : Nat) (getter : Getter) : ClassDecl :=
  { decl with getters := decl.getters.set j getter }

/-- A module with one class changed. -/
def Module.modifyClass (unit : Module) (i : Nat) (change : ClassDecl → ClassDecl) : Module :=
  { unit with classes := unit.classes.modify i change }

end Code

namespace Client

/-! ## Around a container -/

/-- The classes of a group in a container stand together, between those of the groups before it and
    those of the groups behind it. -/
theorem runOf_append_group (options : Options) (path : List String) (name : Option String)
    (before after : List (String × Node)) (key : String) (groupName url : Option String)
    (scope : ScopeId) (inner : List (String × Node)) :
    runOf options ⟨path, name, before ++ (key, .group groupName url scope inner) :: after⟩ =
      classOf options ⟨path, name, before ++ (key, .group groupName url scope inner) :: after⟩ ::
        (branchesBelow path before).map (classOf options) ++
          (runOf options ⟨path ++ [key], groupName, inner⟩ ++
            (branchesBelow path after).map (classOf options)) := by
  simp [runOf, branchesBelow, Node.branches]

/-- The class of a container knows its groups by their keys and names. -/
theorem classOf_append_group (options : Options) (path : List String) (name : Option String)
    (before after : List (String × Node)) (key : String) (groupName url url' : Option String)
    (scope scope' : ScopeId) (inner inner' : List (String × Node)) :
    classOf options ⟨path, name, before ++ (key, .group groupName url' scope' inner') :: after⟩ =
      classOf options ⟨path, name, before ++ (key, .group groupName url scope inner) :: after⟩ := by
  simp [classOf, Branch.className, methodsOf, gettersOf]

/-- **The classes around a container** do not depend on its children. -/
theorem exists_frame {keys : List String} : ∀ {branch container : Branch},
    branch.follow keys = some container → ∃ before after,
      branch :: branchesBelow branch.path branch.children =
        before ++ (container :: branchesBelow container.path container.children ++ after) ∧
      ∀ options change,
        runOf options { branch with children := changeAt change keys branch.children } =
          before.map (classOf options) ++
            (runOf options { container with children := change container.children } ++
              after.map (classOf options)) := by
  induction keys with
  | nil =>
    intro branch container h
    obtain rfl := Option.some.inj h
    exact ⟨[], [], by simp, by simp [changeAt]⟩
  | cons key keys ih =>
    intro branch container h
    obtain ⟨first, last, name, url, scope, inner, hsplit, -, hfollow, hchange⟩ :=
      exists_changeAt_cons h
    obtain ⟨before, after, hbranches, hrun⟩ := ih hfollow
    refine ⟨branch :: branchesBelow branch.path first ++ before,
      after ++ branchesBelow branch.path last, ?_, ?_⟩
    · rw [hsplit, branchesBelow_append, branchesBelow, Node.branches, hbranches]
      simp
    · intro options change
      rw [hchange, runOf_append_group, hrun, classOf_append_group options _ _ _ _ _ _ url _ scope _
        inner, ← hsplit]
      simp

/-- The classes of a schema around one of its containers. -/
theorem exists_frame_of_branch {schema : Schema} (hkeyed : schema.Keyed) {container : Branch}
    {i : Nat} (h : schema.branches[i]? = some container) :
    ∃ before after, before.length = i ∧
      schema.branches =
        before ++ (container :: branchesBelow container.path container.children ++ after) ∧
      ∀ options change, (schema.changeAt change container.path).branches.map (classOf options) =
        before.map (classOf options) ++
          (runOf options { container with children := change container.children } ++
            after.map (classOf options)) := by
  have hfollow := (Schema.mem_branches_iff hkeyed).1 (List.mem_of_getElem? h)
  obtain ⟨before, after, hbranches, hrun⟩ := exists_frame hfollow
  have hbranches : schema.branches =
      before ++ (container :: branchesBelow container.path container.children ++ after) := hbranches
  refine ⟨before, after, ?_, hbranches, hrun⟩
  -- no other place of the list has the path of the container
  have hplace : schema.branches[before.length]? = some container := by simp [hbranches]
  have hlt : before.length < (schema.branches.map Branch.path).length := by simp [hbranches]
  refine (List.getElem?_inj hlt (Schema.nodup_paths hkeyed)).1 ?_
  rw [List.getElem?_map, List.getElem?_map, hplace, h]

/-! ## The classes of a container with another child -/

/-- An endpoint in the place of an endpoint is a method in the place of a method. -/
theorem exists_runOf_insert_endpoint {container : Branch} {key : String} {old : Endpoint}
    (h : Table.get? container.children key = some (.endpoint old)) :
    ∃ j : Nat, (endpointsOf container.children)[j]? = some (key, old) ∧
      ∀ options endpoint, runOf options
          { container with children := Table.insert key (.endpoint endpoint) container.children } =
        (classOf options container).setMethod j (methodOf options key endpoint) ::
          (branchesBelow container.path container.children).map (classOf options) := by
  obtain ⟨path, name, children⟩ := container
  obtain ⟨before, after, rfl, hnew⟩ := Table.exists_append_of_get? h
  refine ⟨(endpointsOf before).length, ?_, ?_⟩
  · simp
  · intro options endpoint
    rw [Table.insert_append_cons hnew]
    simp [runOf, branchesBelow, Node.branches, Code.ClassDecl.setMethod, classOf, Branch.className,
      methodsOf, gettersOf]

/-- An endpoint under a new key is a method at the end. -/
theorem runOf_insert_new {container : Branch} {key : String}
    (h : key ∉ Table.keys container.children) (options : Options) (endpoint : Endpoint) :
    runOf options
        { container with children := Table.insert key (.endpoint endpoint) container.children } =
      (classOf options container).addMethod (methodOf options key endpoint) ::
        (branchesBelow container.path container.children).map (classOf options) := by
  rw [Table.insert_of_notMem h]
  simp [runOf, branchesBelow, Node.branches, Code.ClassDecl.addMethod, classOf, Branch.className,
    methodsOf, gettersOf, endpointsOf, groupsOf]

/-- A group in the place of a group is a getter in the place of a getter, and the classes of the one
    stand where those of the other stood. -/
theorem exists_runOf_insert_group {container : Branch} {key : String} {name url : Option String}
    {scope : ScopeId} {inner : List (String × Node)}
    (h : Table.get? container.children key = some (.group name url scope inner)) :
    ∃ (j : Nat) (before after : List Branch),
      (groupsOf container.children)[j]? = some (key, name) ∧
      branchesBelow container.path container.children = before ++
        (⟨container.path ++ [key], name, inner⟩ :: branchesBelow (container.path ++ [key]) inner ++
          after) ∧
      ∀ options name' url' scope' inner', runOf options { container with
          children := Table.insert key (.group name' url' scope' inner') container.children } =
        (classOf options container).setGetter j
            { name := key, target := groupClassName key name' options.groupSuffix } ::
          before.map (classOf options) ++
            (runOf options ⟨container.path ++ [key], name', inner'⟩ ++
              after.map (classOf options)) := by
  obtain ⟨path, containerName, children⟩ := container
  obtain ⟨first, last, rfl, hnew⟩ := Table.exists_append_of_get? h
  refine ⟨(groupsOf first).length, branchesBelow path first, branchesBelow path last, ?_, ?_, ?_⟩
  · simp
  · rw [branchesBelow_append, branchesBelow, Node.branches]
  · intro options name' url' scope' inner'
    rw [Table.insert_append_cons hnew, runOf_append_group]
    simp [Code.ClassDecl.setGetter, classOf, Branch.className, methodsOf, gettersOf]

/-! ## Edits in a registry -/

/-- The module of the tree with a container at its root. -/
def moduleOf? (options : Options) (registry : Registry) (root : NodeId) :
    Option (Except Unsupported Code.Module) :=
  (registry.schema? root).map (ofSchema options)

/-- What members that are added to one container change in the module of the tree at `root`. The
    container is the branch of number `i`, its node is `owner`, and `unit` is the module before. -/
structure EditsLocally (options : Options) (registry : Registry) (root owner : NodeId)
    (schema : Schema) (container : Branch) (i : Nat) (unit : Code.Module) : Prop where
  /-- An endpoint in the place of an endpoint changes the method in its place. -/
  replaced : ∀ {key old new endpoint}, (key, .endpoint old) ∈ container.children →
    registry.cells[new]? = some (.endpoint endpoint) →
    ∃ j : Nat, (endpointsOf container.children)[j]? = some (key, old) ∧
      unit.classes[i]?.bind (·.methods[j]?) = some (methodOf options key old) ∧
      moduleOf? options (registry.add owner key (.node new)) root =
        some (.ok (unit.modifyClass i (·.setMethod j (methodOf options key endpoint))))
  /-- An endpoint under a new key adds a method at the end. -/
  added : ∀ {key new endpoint}, key ∉ Table.keys container.children →
    registry.cells[new]? = some (.endpoint endpoint) →
    moduleOf? options (registry.add owner key (.node new)) root =
      some (.ok (unit.modifyClass i (·.addMethod (methodOf options key endpoint))))
  /-- A group in the place of a group changes the target of its getter, and its classes, which are
      those of the group as a schema of its own (`ofSchema_group`), take the place of those of the
      other. A group in which the container lies would make the tree endless. -/
  regrouped : ∀ {key name url scope inner new name' url' scope' inner'},
    (key, .group name url scope inner) ∈ container.children →
    registry.Holds (.node new) (.group name' url' scope' inner') → ¬registry.Reaches new owner →
    ∃ (j : Nat) (before after : List Code.ClassDecl),
      (groupsOf container.children)[j]? = some (key, name) ∧
      unit.classes[i]?.bind (·.getters[j]?) =
        some { name := key, target := groupClassName key name options.groupSuffix } ∧
      i < before.length ∧
      schema.branches[before.length]? = some ⟨container.path ++ [key], name, inner⟩ ∧
      unit.classes =
        before ++ (runOf options ⟨container.path ++ [key], name, inner⟩ ++ after) ∧
      moduleOf? options (registry.add owner key (.node new)) root = some (.ok { unit with
        classes :=
          before.modify i (·.setGetter j
            { name := key, target := groupClassName key name' options.groupSuffix }) ++
          (runOf options ⟨container.path ++ [key], name', inner'⟩ ++ after) })

/-- An endpoint stays what it is when a member is added to a container. -/
theorem holds_endpoint_add {registry : Registry} {id : NodeId} {endpoint : Endpoint}
    (h : registry.cells[id]? = some (.endpoint endpoint)) (owner : NodeId) (key : String)
    (member : Member) : (registry.add owner key member).Holds (.node id) (.endpoint endpoint) := by
  refine Registry.holds_endpoint.2 ⟨id, rfl, ?_⟩
  rw [Registry.add, List.getElem?_modify, h]
  by_cases howner : owner = id <;> simp [howner]

/-- The module after a member was added: around the container it is the module before. -/
theorem exists_moduleOf_add {registry : Registry} {root : NodeId} {schema : Schema}
    (hknown : schema.AllKnown) (hkeyed : schema.Keyed)
    (hstored : registry.Stores root (schema.cellsFrom root)) {container : Branch} {i : Nat}
    (hcontainer : schema.branches[i]? = some container) :
    ∃ owner before after, registry.locate root container.path = some owner ∧ before.length = i ∧
      schema.branches =
        before ++ (container :: branchesBelow container.path container.children ++ after) ∧
      ∀ options key member node, (registry.add owner key member).Holds member node →
        moduleOf? options (registry.add owner key member) root = some (.ok ⟨options.imports,
          before.map (classOf options) ++
            (runOf options
                { container with children := Table.insert key node container.children } ++
              after.map (classOf options))⟩) := by
  obtain ⟨owner, hlocate, hadd⟩ := Registry.exists_add_eq hknown hkeyed hstored
    (List.mem_of_getElem? hcontainer)
  obtain ⟨before, after, hlength, hbranches, hrun⟩ := exists_frame_of_branch hkeyed hcontainer
  refine ⟨owner, before, after, hlocate, hlength, hbranches, ?_⟩
  intro options key member node hnode
  obtain ⟨hschema, hchanged⟩ := hadd key member node hnode
  rw [moduleOf?, hschema, Option.map_some, ofSchema_eq_ok options hchanged, hrun]

theorem modify_map_append_cons {α β : Type} (f : α → β) (before : List α) (b : β) (after : List β)
    (change : β → β) : (before.map f ++ b :: after).modify before.length change =
      before.map f ++ change b :: after := by
  have hmodify := modify_length_append change (before.map f) b after
  rwa [List.length_map] at hmodify

/-- A change of the class of a container, among the classes around it. -/
theorem modifyClass_eq {schema : Schema} {container : Branch} {before below after : List Branch}
    (h : schema.branches = before ++ (container :: below ++ after)) (options : Options)
    (change : Code.ClassDecl → Code.ClassDecl) :
    Code.Module.modifyClass ⟨options.imports, schema.branches.map (classOf options)⟩
        before.length change =
      ⟨options.imports, before.map (classOf options) ++
        (change (classOf options container) :: below.map (classOf options) ++
          after.map (classOf options))⟩ := by
  simp [Code.Module.modifyClass, h, modify_map_append_cons]

/-- **Edits have local effects.** In a tree read from a document, a container is found by the keys
    that lead to it. When an endpoint is added to it, or a group in the place of a group, all classes
    but its own and those of the group that is replaced stay, and so does everything in its own class
    but the one member. -/
theorem edits_are_local {scopes scopes' : Scopes} {document : Json} {schema : Schema}
    (hread : Document.read scopes document = .ok (schema, scopes'))
    (hdocument : document.isKeyed = true) (options : Options) {earlier registry : Registry}
    (hkept : (earlier.enter schema).2.cells <+: registry.cells) {container : Branch} {i : Nat}
    (hcontainer : schema.branches[i]? = some container) :
    ∃ owner unit, registry.locate (earlier.enter schema).1 container.path = some owner ∧
      moduleOf? options registry (earlier.enter schema).1 = some (.ok unit) ∧
      EditsLocally options registry (earlier.enter schema).1 owner schema container i unit := by
  have hknown := Document.allKnown_of_read hread
  have hkeyed := Schema.keyed_of_isDescribedBy hdocument (Document.isDescribedBy_of_read hread)
  have hstored := Registry.stores_of_enter hknown hkeyed hkept
  have hdistinct := (hkeyed container (List.mem_of_getElem? hcontainer)).1
  obtain ⟨owner, before, after, hlocate, rfl, hbranches, hmodule⟩ :=
    exists_moduleOf_add hknown hkeyed hstored hcontainer
  have hclass : (schema.branches.map (classOf options))[before.length]? =
      some (classOf options container) := by
    rw [List.getElem?_map, hcontainer, Option.map_some]
  refine ⟨owner, ⟨options.imports, schema.branches.map (classOf options)⟩, hlocate, ?_, ?_⟩
  · rw [moduleOf?, Registry.schema?_of_stores hknown hkeyed hstored, Option.map_some,
      ofSchema_eq_ok options hknown]
  · constructor
    case replaced =>
      intro key old new endpoint hold hnew
      obtain ⟨j, hj, hrun⟩ := exists_runOf_insert_endpoint (Table.get?_of_mem hdistinct hold)
      refine ⟨j, hj, ?_, ?_⟩
      · rw [hclass]
        simp [classOf, methodsOf, hj]
      · rw [hmodule options key _ _ (holds_endpoint_add hnew owner key _), hrun,
          modifyClass_eq hbranches]
    case added =>
      intro key new endpoint hkey hnew
      rw [hmodule options key _ _ (holds_endpoint_add hnew owner key _), runOf_insert_new hkey,
        modifyClass_eq hbranches]
    case regrouped =>
      intro key name url scope inner new name' url' scope' inner' hold hnew hapart
      obtain ⟨j, first, last, hj, hbelow, hrun⟩ :=
        exists_runOf_insert_group (Table.get?_of_mem hdistinct hold)
      -- the group stands behind the container and the groups before it
      have hplace : schema.branches = before ++ container :: first ++
          (⟨container.path ++ [key], name, inner⟩ ::
            (branchesBelow (container.path ++ [key]) inner ++ (last ++ after))) := by
        rw [hbranches, hbelow]
        simp
      refine ⟨j, (before ++ container :: first).map (classOf options),
        (last ++ after).map (classOf options), hj, ?_, by simp, ?_, ?_, ?_⟩
      · rw [hclass]
        simp [classOf, gettersOf, hj]
      · simp [hplace]
      · simp [hplace, runOf]
      · rw [hmodule options key _ _ (Registry.Holds.add key _ _ hnew hapart), hrun, List.map_append,
          List.map_cons, modify_map_append_cons]
        simp

/-- A group with a group in it between two endpoints, and another group behind it. -/
def catalogDocument : Json :=
  .object [("apis", .object [
    ("books", .object [("apis", .object [
      ("list", .object [("method", .string "get"), ("url", .string "/books")]),
      ("loans", .object [("apis", .object [("open", .object [("method", .string "get")])])]),
      ("find", .object [("method", .string "get")])])]),
    ("films", .object [("apis", .object [])])])]

/-- The children of the first group. -/
def catalogBooks : List (String × Node) := [
  ("list", .endpoint ⟨some "/books", .get none, 2⟩),
  ("loans", .group none none 3 [("open", .endpoint ⟨none, .get none, 4⟩)]),
  ("find", .endpoint ⟨none, .get none, 5⟩)]

/-- The schema of this document. -/
def catalogSchema : Schema where
  name := none
  url := none
  scope := 0
  children := [("books", .group none none 1 catalogBooks), ("films", .group none none 6 [])]

/-- The schema among the nodes of a registry, and behind it an endpoint and a group with a name. -/
def catalogRegistry : Registry :=
  { cells := (Registry.enter {} catalogSchema).2.cells ++
      [.endpoint ⟨some "/all", .post none, 7⟩,
        .container ⟨.group, some "Lending", none, 8, [("return", .node 7)]⟩] }

theorem edits_are_local_catalog : ∃ scopes unit j k before after,
    Document.read {} catalogDocument = .ok (catalogSchema, scopes) ∧
      catalogDocument.isKeyed = true ∧
      (Registry.enter {} catalogSchema).2.cells <+: catalogRegistry.cells ∧
      catalogSchema.branches[1]? = some ⟨["books"], none, catalogBooks⟩ ∧
      catalogRegistry.locate 0 ["books"] = some 1 ∧
      moduleOf? {} catalogRegistry 0 = some (.ok unit) ∧
      moduleOf? {} (catalogRegistry.add 1 "list" (.node 7)) 0 = some (.ok (unit.modifyClass 1
        (·.setMethod j (methodOf {} "list" ⟨some "/all", .post none, 7⟩)))) ∧
      moduleOf? {} (catalogRegistry.add 1 "drop" (.node 7)) 0 = some (.ok (unit.modifyClass 1
        (·.addMethod (methodOf {} "drop" ⟨some "/all", .post none, 7⟩)))) ∧
      unit.classes = before ++ (runOf {} ⟨["books", "loans"], none,
        [("open", .endpoint ⟨none, .get none, 4⟩)]⟩ ++ after) ∧
      moduleOf? {} (catalogRegistry.add 1 "loans" (.node 8)) 0 = some (.ok { unit with
        classes := before.modify 1 (·.setGetter k { name := "loans", target := "Lending" }) ++
          (runOf {} ⟨["books", "loans"], some "Lending",
            [("return", .endpoint ⟨some "/all", .post none, 7⟩)]⟩ ++ after) }) := by
  have hread : ∃ scopes, Document.read {} catalogDocument = .ok (catalogSchema, scopes) := ⟨_, rfl⟩
  obtain ⟨scopes, hread⟩ := hread
  have hdocument : catalogDocument.isKeyed = true := by decide
  have hkept : (Registry.enter {} catalogSchema).2.cells <+: catalogRegistry.cells :=
    List.prefix_append ..
  have hcontainer : catalogSchema.branches[1]? = some ⟨["books"], none, catalogBooks⟩ := rfl
  have hlocated : catalogRegistry.locate 0 ["books"] = some 1 := by decide
  obtain ⟨owner, unit, hlocate, hunit, hedits⟩ :=
    edits_are_local hread hdocument {} hkept hcontainer
  obtain rfl : owner = 1 := Option.some.inj (hlocate.symm.trans hlocated)
  have hendpoint : catalogRegistry.cells[7]? = some (.endpoint ⟨some "/all", .post none, 7⟩) := rfl
  have hgroup : catalogRegistry.Holds (.node 8) (.group (some "Lending") none 8
      [("return", .endpoint ⟨some "/all", .post none, 7⟩)]) := by
    refine Registry.holds_group.2 ⟨8, _, rfl, rfl, ?_⟩
    exact Registry.holdsAll_cons.2 ⟨_, _, rfl, Registry.holds_endpoint.2 ⟨7, rfl, rfl⟩,
      Registry.holdsAll_nil.2 rfl⟩
  have hapart : ¬catalogRegistry.Reaches 8 1 := by
    rintro (_ | ⟨hcell, hmem, hreaches⟩)
    obtain rfl := Cell.container.inj (Option.some.inj hcell)
    obtain ⟨rfl, hnext⟩ := Prod.mk.inj (List.mem_singleton.1 hmem)
    obtain rfl := Member.node.inj hnext
    rcases hreaches with _ | ⟨hcell, -, -⟩
    cases hendpoint.symm.trans hcell
  have hlist : ("list", .endpoint ⟨some "/books", .get none, 2⟩) ∈ catalogBooks :=
    List.mem_cons_self ..
  have hdrop : "drop" ∉ Table.keys catalogBooks := by decide
  have hloans : ("loans", .group none none 3 [("open", .endpoint ⟨none, .get none, 4⟩)]) ∈
      catalogBooks := List.mem_cons_of_mem _ (List.mem_cons_self ..)
  obtain ⟨j, -, -, hreplaced⟩ := hedits.replaced hlist hendpoint
  obtain ⟨k, before, after, -, -, -, -, hclasses, hregrouped⟩ :=
    hedits.regrouped hloans hgroup hapart
  exact ⟨scopes, unit, j, k, before, after, hread, hdocument, hkept, hcontainer, hlocated, hunit,
    hreplaced, hedits.added hdrop hendpoint, hclasses, hregrouped⟩

end Client

end ApiScribe

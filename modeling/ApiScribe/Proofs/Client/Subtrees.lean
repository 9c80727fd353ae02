import ApiScribe.Proofs.Client.NormalForm
import ApiScribe.Proofs.Schema.Preorder

set_option autoImplicit false

/-! # The classes of a group and of all groups in it

The walk keeps all classes in one list and comes back to a container after every group in it. Still
the classes of a group and of the groups in it stand next to each other in that list
(`Schema.exists_drop_branches`), and they are the classes that the group has as a schema of its own,
whatever surrounds it (`ofSchema_group`). The one difference is that a root is exported. Hence the
text of those classes is a block of the text of the whole client, and with `export` in front it is
the text of the client of the group alone (`source_eq_around_group`). -/

namespace ApiScribe

/-! ## A branch and the branches in it -/

theorem exists_drop_append {α : Type} {first second : List α} {i : Nat} {a : α}
    (h : (first ++ second)[i]? = some a) :
    (first[i]? = some a ∧ (first ++ second).drop i = first.drop i ++ second) ∨
      ∃ j, second[j]? = some a ∧ (first ++ second).drop i = second.drop j := by
  by_cases hi : i < first.length
  · rw [List.getElem?_append_left hi] at h
    exact .inl ⟨h, List.drop_append_of_le_length (Nat.le_of_lt hi)⟩
  · rw [List.getElem?_append_right (Nat.le_of_not_lt hi)] at h
    refine .inr ⟨i - first.length, h, ?_⟩
    rw [List.drop_append, List.drop_eq_nil_of_le (Nat.le_of_not_lt hi), List.nil_append]

mutual

/-- From a branch of a node on, the list goes on with the branches in it. -/
theorem Node.exists_drop_branches {path : List String} {branch : Branch} : ∀ (node : Node) (i : Nat),
    (node.branches path)[i]? = some branch → ∃ after, (node.branches path).drop i =
      branch :: branchesBelow branch.path branch.children ++ after
  | .endpoint _, i, h => by simp [Node.branches] at h
  | .foreign _, i, h => by simp [Node.branches] at h
  | .group name _ _ children, i, h => by
    rw [Node.branches] at h ⊢
    cases i with
    | zero =>
      obtain rfl := Option.some.inj h
      exact ⟨[], by simp⟩
    | succ i => exact exists_drop_branchesBelow children i h

theorem exists_drop_branchesBelow {path : List String} {branch : Branch} :
    ∀ (children : List (String × Node)) (i : Nat),
    (branchesBelow path children)[i]? = some branch → ∃ after, (branchesBelow path children).drop i =
      branch :: branchesBelow branch.path branch.children ++ after
  | [], i, h => by simp [branchesBelow] at h
  | (key, node) :: rest, i, h => by
    rw [branchesBelow] at h ⊢
    rcases exists_drop_append h with ⟨hnode, hdrop⟩ | ⟨j, hrest, hdrop⟩
    · obtain ⟨after, hafter⟩ := node.exists_drop_branches i hnode
      exact ⟨after ++ branchesBelow path rest, by rw [hdrop, hafter, List.append_assoc]⟩
    · obtain ⟨after, hafter⟩ := exists_drop_branchesBelow rest j hrest
      exact ⟨after, by rw [hdrop, hafter]⟩

end

/-- **A branch and the branches in it stand next to each other.** -/
theorem Schema.exists_drop_branches {schema : Schema} {branch : Branch} {i : Nat}
    (h : schema.branches[i]? = some branch) : ∃ after, schema.branches =
      schema.branches.take i ++ (branch :: branchesBelow branch.path branch.children ++ after) := by
  rw [branches_eq] at h ⊢
  obtain ⟨after, hafter⟩ := Node.exists_drop_branches _ i h
  exact ⟨after, by rw [← hafter, List.take_append_drop]⟩

/-- Only the root stands at the start of the list. -/
theorem Schema.pos_of_branch {schema : Schema} {branch : Branch} {i : Nat}
    (h : schema.branches[i]? = some branch) (hpath : branch.path ≠ []) : 0 < i := by
  refine Nat.pos_of_ne_zero ?_
  rintro rfl
  obtain rfl : schema.root = branch := Option.some.inj h
  exact hpath rfl

/-- A branch of a schema without foreign nodes is a schema without foreign nodes. -/
theorem Schema.AllKnown.of_branch {schema : Schema} (hknown : schema.AllKnown) {branch : Branch}
    (hbranch : branch ∈ schema.branches) (name url : Option String) (scope : ScopeId) :
    AllKnown ⟨name, url, scope, branch.children⟩ := by
  obtain ⟨i, hi⟩ := List.mem_iff_getElem?.1 hbranch
  obtain ⟨after, hsplit⟩ := exists_drop_branches hi
  refine allKnown_iff.2 fun entry hentry => ?_
  rcases (mem_preorderBelow_iff branch.path branch.children).1 hentry with hchild | ⟨inner, hinner, hchild⟩
  · exact hknown branch hbranch entry hchild
  · have hmem : inner ∈ schema.branches := by
      rw [hsplit]
      simp [hinner]
    exact hknown inner hmem entry hchild

namespace Client

/-! ## The classes of a branch and of the branches in it -/

/-- The classes of a branch and of all branches in it. -/
def runOf (options : Options) (branch : Branch) : List Code.ClassDecl :=
  classOf options branch :: (branchesBelow branch.path branch.children).map (classOf options)

/-- One class for the branch and one for each group in it. -/
theorem length_runOf (options : Options) (branch : Branch) :
    (runOf options branch).length = countBelow Node.isGroup branch.children + 1 := by
  simp [runOf, length_branchesBelow]

/-- They stand together in the module, behind as many classes as there are branches before. -/
theorem exists_classes_eq (options : Options) {schema : Schema} {branch : Branch} {i : Nat}
    (h : schema.branches[i]? = some branch) :
    ∃ earlier later, schema.branches.map (classOf options) =
      earlier ++ (runOf options branch ++ later) ∧ earlier.length = i := by
  obtain ⟨after, hsplit⟩ := Schema.exists_drop_branches h
  have hlt := (List.getElem?_eq_some_iff.1 h).1
  refine ⟨(schema.branches.take i).map (classOf options), after.map (classOf options), ?_, ?_⟩
  · rw [runOf, ← List.map_cons, ← List.map_append, ← List.map_append, ← hsplit]
  · rw [List.length_map, List.length_take, Nat.min_eq_left (Nat.le_of_lt hlt)]

/-! ## A group as a schema of its own -/

/-- The options with which a group, as a schema of its own, has the class name that it has under a
    key; nothing is imported. -/
def Options.forGroup (options : Options) (key : String) (name : Option String) : Options :=
  { options with
    importsTransport := false
    rootName := groupClassName key name options.groupSuffix }

theorem endpointForms_forGroup (options : Options) (key : String) (name : Option String)
    (children : List (String × Node)) :
    endpointForms (options.forGroup key name) children = endpointForms options children := rfl

mutual

theorem groupForm_forGroup (options : Options) (key : String) (name : Option String)
    (key' : String) : ∀ node : Node,
    groupForm (options.forGroup key name) key' node = groupForm options key' node
  | .endpoint _ => rfl
  | .foreign _ => rfl
  | .group _ _ _ children => by
    rw [groupForm, groupForm, groupForms_forGroup options key name children,
      endpointForms_forGroup]
    rfl

/-- The classes of groups do not depend on what the options say about the root. -/
theorem groupForms_forGroup (options : Options) (key : String) (name : Option String) :
    ∀ children : List (String × Node),
    groupForms (options.forGroup key name) children = groupForms options children
  | [] => rfl
  | (key', node) :: rest => by
    rw [groupForms, groupForms, groupForm_forGroup options key name key' node,
      groupForms_forGroup options key name rest]

end

/-- The class of a group alone is the one that it has anywhere, but exported. -/
theorem classOf_forGroup (options : Options) (path : List String) (key : String)
    (name : Option String) (children : List (String × Node)) :
    classOf (options.forGroup key name) ⟨[], name, children⟩ =
      { classOf options ⟨path ++ [key], name, children⟩ with exported := true } := by
  have hname : Branch.className (options.forGroup key name) ⟨[], name, children⟩ =
      groupClassName key name options.groupSuffix := by
    cases name <;> rfl
  simp only [classOf, hname, Branch.className_below]
  rfl

/-- Classes with the first one exported. -/
def exportFirst : List Code.ClassDecl → List Code.ClassDecl
  | [] => []
  | first :: rest => { first with exported := true } :: rest

/-- **A group alone.** The module of a group as a schema of its own has the classes that the group
    and the groups in it have anywhere under the key, the first one exported. -/
theorem ofSchema_group (options : Options) (path : List String) (key : String)
    (name url : Option String) (scope : ScopeId) (children : List (String × Node))
    (hknown : Schema.AllKnown ⟨name, url, scope, children⟩) :
    ofSchema (options.forGroup key name) ⟨name, url, scope, children⟩ =
      .ok ⟨[], exportFirst (runOf options ⟨path ++ [key], name, children⟩)⟩ := by
  rw [ofSchema_eq_ok _ hknown, Schema.branches, List.map_cons, map_classOf_branchesBelow,
    groupForms_forGroup, ← map_classOf_branchesBelow options (path ++ [key]), Schema.root,
    classOf_forGroup options path]
  rfl

/-! ## The text of a group -/

theorem render_exported {decl : Code.ClassDecl} (h : decl.exported = false) :
    Code.ClassDecl.render { decl with exported := true } = "export " ++ decl.render := by
  have hheader : Code.ClassDecl.header { decl with exported := true } = "export " ++ decl.header := by
    rw [Code.ClassDecl.header, Code.ClassDecl.header, if_pos rfl, if_neg (by simp [h]),
      String.empty_append, String.append_assoc, String.append_assoc, String.append_assoc]
  unfold Code.ClassDecl.render
  simp only [hheader, Code.ClassDecl.members, String.append_assoc]

/-- The text of a group as a schema of its own is that of its classes, the first one exported. -/
theorem source_group (options : Options) (path : List String) (key : String)
    (name url : Option String) (scope : ScopeId) (children : List (String × Node))
    (hknown : Schema.AllKnown ⟨name, url, scope, children⟩) :
    ∃ events, source (options.forGroup key name) ⟨name, url, scope, children⟩ =
      .ok ("export " ++ String.join ((runOf options ⟨path ++ [key], name, children⟩).map
        Code.ClassDecl.render), events) := by
  obtain ⟨events, hsource⟩ := source_eq_ok (options.forGroup key name) hknown
  have hmodule := ofSchema_group options path key name url scope children hknown
  rw [ofSchema_eq_ok _ hknown] at hmodule
  have hexported : (classOf options ⟨path ++ [key], name, children⟩).exported = false := by
    simp [classOf]
  refine ⟨events, ?_⟩
  rw [hsource, Except.ok.inj hmodule]
  simp [Code.Module.render, runOf, exportFirst, render_exported hexported, String.append_assoc]

/-- A class ends with a line break. -/
theorem exists_render_eq (decl : Code.ClassDecl) : ∃ lines, decl.render = lines ++ "\n" :=
  ⟨decl.header ++ String.join (decl.members.map Code.memberBlock) ++ "\x7d", by
    simp [Code.ClassDecl.render, ← String.toList_inj]⟩

/-- Classes end with a line break, if there are any. -/
theorem exists_join_render_eq {decls : List Code.ClassDecl} (h : decls ≠ []) :
    ∃ lines, String.join (decls.map Code.ClassDecl.render) = lines ++ "\n" := by
  obtain ⟨lines, hlines⟩ := exists_render_eq (decls.getLast h)
  refine ⟨String.join (decls.dropLast.map Code.ClassDecl.render) ++ lines, ?_⟩
  calc String.join (decls.map Code.ClassDecl.render)
      = String.join ((decls.dropLast ++ [decls.getLast h]).map Code.ClassDecl.render) := by
        rw [List.dropLast_concat_getLast h]
    _ = _ := by simp [hlines, String.append_assoc]

/-- **Generation is compositional.** Wherever a group stands in a schema, the text of the client has
    a block behind whole lines that is made of consecutive classes, one for the group and one for
    each group in it. The block is also the text of the client of the group as a schema of its own,
    but for the word `export`. -/
theorem source_eq_around_group (options : Options) {schema : Schema} (hknown : schema.AllKnown)
    {container : Branch} (hcontainer : container ∈ schema.branches) {key : String}
    {name url : Option String} {scope : ScopeId} {children : List (String × Node)}
    (hgroup : (key, .group name url scope children) ∈ container.children) :
    (∃ i : Nat, schema.branches[i]? = some ⟨container.path ++ [key], name, children⟩) ∧
    ∀ i : Nat, schema.branches[i]? = some ⟨container.path ++ [key], name, children⟩ →
      ∃ unit before block after events events',
        ofSchema options schema = .ok unit ∧
        source options schema = .ok (before ++ block ++ after, events) ∧
        source (options.forGroup key name) ⟨name, url, scope, children⟩ =
          .ok ("export " ++ block, events') ∧
        (∃ lines, before = lines ++ "\n") ∧
        block = String.join (((unit.classes.drop i).take (countBelow Node.isGroup children + 1)).map
          Code.ClassDecl.render) := by
  have hinner : ⟨container.path ++ [key], name, children⟩ ∈ schema.branches :=
    Schema.mem_branches_of_hasGroup hcontainer ⟨rfl, url, scope, hgroup⟩
  refine ⟨List.mem_iff_getElem?.1 hinner, ?_⟩
  intro i hi
  have hpos : 0 < i := Schema.pos_of_branch hi (by simp)
  obtain ⟨earlier, later, hclasses, hlength⟩ := exists_classes_eq options hi
  obtain ⟨events, hsource⟩ := source_eq_ok options hknown
  obtain ⟨events', hgroupSource⟩ := source_group options container.path key name url scope children
    (hknown.of_branch hinner name url scope)
  -- the root class stands before the group, so the block does not start the text
  obtain ⟨lines, hlines⟩ := exists_join_render_eq
    (show earlier ≠ [] from List.ne_nil_of_length_pos (hlength ▸ hpos))
  refine ⟨_, String.join (options.imports.map Code.Import.render) ++
      String.join (earlier.map Code.ClassDecl.render), _,
      String.join (later.map Code.ClassDecl.render), events, events',
      ofSchema_eq_ok options hknown, ?_, hgroupSource, ?_, ?_⟩
  · rw [hsource, hclasses]
    simp [Code.Module.render, String.append_assoc]
  · exact ⟨_ ++ lines, by rw [hlines, String.append_assoc]⟩
  · rw [hclasses, ← hlength, List.drop_left,
      ← length_runOf options ⟨container.path ++ [key], name, children⟩, List.take_left]

/-- A group in a group, with a name of its own and a group in it, between other nodes. -/
def booksGroup : Node :=
  .group (some "Book") none 4 [("find", .endpoint ⟨none, .get none, 5⟩), ("pages", .group none none 6 [])]

/-- The container of the group. -/
def shelves : List (String × Node) :=
  [("dust", .group none none 3 []), ("books", booksGroup), ("open", .endpoint ⟨none, .post none, 7⟩)]

/-- The schema around the container. -/
def librarySchema : Schema where
  name := some "Library"
  url := none
  scope := 0
  children := [
    ("list", .endpoint ⟨some "/list", .get none, 1⟩),
    ("shelves", .group none none 2 shelves),
    ("users", .group none none 8 [])]

theorem source_eq_around_group_books :
    librarySchema.AllKnown ∧ ⟨["shelves"], none, shelves⟩ ∈ librarySchema.branches ∧
      ("books", booksGroup) ∈ shelves ∧ ∃ before block after events events',
        source {} librarySchema = .ok (before ++ block ++ after, events) ∧
        source ({ rootName := "Book", importsTransport := false } : Options)
          ⟨some "Book", none, 4, [("find", .endpoint ⟨none, .get none, 5⟩),
            ("pages", .group none none 6 [])]⟩ = .ok ("export " ++ block, events') ∧
        block = "class Book \x7b\n    public async find(): Promise<any> \x7b\n" ++
          "        return axios(\x7b\"url\": \"TODO\", \"method\": \"get\"\x7d);\n    \x7d\n" ++
          "    public get pages() \x7b\n        return new PagesAPISet();\n    \x7d\n\x7d\n" ++
          "class PagesAPISet \x7b\n\x7d\n" := by
  have hknown : librarySchema.AllKnown := by decide
  have hcontainer : ⟨["shelves"], none, shelves⟩ ∈ librarySchema.branches :=
    List.mem_of_getElem? (show librarySchema.branches[1]? = some ⟨["shelves"], none, shelves⟩ from rfl)
  have hgroup : ("books", booksGroup) ∈ shelves := by simp [shelves]
  obtain ⟨unit, before, block, after, events, events', hunit, hsource, hgroupSource, -, hblock⟩ :=
    (source_eq_around_group {} hknown hcontainer hgroup).2 3 rfl
  obtain rfl : _ = unit := Except.ok.inj hunit
  exact ⟨hknown, hcontainer, hgroup, before, block, after, events, events', hsource, hgroupSource,
    hblock.trans (by decide +kernel)⟩

end Client

end ApiScribe

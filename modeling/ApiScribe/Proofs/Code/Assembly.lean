import ApiScribe.Code.Assembly
import ApiScribe.Code.Render

set_option autoImplicit false

/-! # Assembling in any order

Parts under construction are shared, so an addition to a class changes every module that lists it,
before or after. Still a run of additions leaves nothing but longer lists: every owner keeps, of
each kind, what it had and then what was added to it (`Assembly.getElem?_modules_addAll`,
`Assembly.getElem?_classes_addAll`). So two runs that add the same to every list in the same order
leave the same assembly, however they go back and forth between the lists (`Assembly.addAll_eq`). -/

namespace ApiScribe.Code

/-! ## What is added to a list -/

/-- The lists of an owner: a module lists imports and classes, a class methods and getters. -/
inductive Slot where
  | imports
  | classes
  | methods
  | getters
deriving DecidableEq, Repr

/-- The list that an addition goes to. -/
def Addition.slot : Addition → Slot
  | .ofImport .. => .imports
  | .ofClass .. => .classes
  | .ofMethod .. => .methods
  | .ofGetter .. => .getters

/-- The module or class that an addition goes to. -/
def Addition.owner : Addition → PartId
  | .ofImport owner _ | .ofClass owner _ | .ofMethod owner _ | .ofGetter owner _ => owner

/-- The part that is added. -/
def Addition.part : Addition → PartId
  | .ofImport _ part | .ofClass _ part | .ofMethod _ part | .ofGetter _ part => part

/-- The parts that go to one list of an owner, in order. -/
def added (slot : Slot) (owner : PartId) (additions : List Addition) : List PartId :=
  (additions.filter fun addition => addition.slot = slot ∧ addition.owner = owner).map Addition.part

/-- Two runs add the same parts to every list in the same order. -/
def SameLists (first second : List Addition) : Prop :=
  ∀ slot owner, added slot owner first = added slot owner second

theorem added_append (slot : Slot) (owner : PartId) (first second : List Addition) :
    added slot owner (first ++ second) = added slot owner first ++ added slot owner second := by
  simp [added]

theorem added_eq_nil {slot : Slot} {owner : PartId} {additions : List Addition}
    (h : ∀ addition ∈ additions, ¬(addition.slot = slot ∧ addition.owner = owner)) :
    added slot owner additions = [] := by
  simpa [added] using h

theorem added_singleton (slot : Slot) (owner : PartId) (addition : Addition) :
    added slot owner [addition] =
      if addition.slot = slot ∧ addition.owner = owner then [addition.part] else [] := by
  unfold added
  split <;> simp_all

/-- A module with longer lists. -/
def ModuleDraft.grow (draft : ModuleDraft) (owner : PartId) (additions : List Addition) :
    ModuleDraft where
  imports := draft.imports ++ added .imports owner additions
  classes := draft.classes ++ added .classes owner additions

/-- A class with longer lists. -/
def ClassDraft.grow (draft : ClassDraft) (owner : PartId) (additions : List Addition) :
    ClassDraft where
  name := draft.name
  exported := draft.exported
  methods := draft.methods ++ added .methods owner additions
  getters := draft.getters ++ added .getters owner additions

theorem ModuleDraft.grow_congr {first second : List Addition} (h : SameLists first second)
    (draft : ModuleDraft) (owner : PartId) : draft.grow owner first = draft.grow owner second := by
  rw [grow, grow, h .imports, h .classes]

theorem ClassDraft.grow_congr {first second : List Addition} (h : SameLists first second)
    (draft : ClassDraft) (owner : PartId) : draft.grow owner first = draft.grow owner second := by
  rw [grow, grow, h .methods, h .getters]

theorem ModuleDraft.grow_nil (draft : ModuleDraft) (owner : PartId) : draft.grow owner [] = draft := by
  simp [grow, added]

theorem ClassDraft.grow_nil (draft : ClassDraft) (owner : PartId) : draft.grow owner [] = draft := by
  simp [grow, added]

theorem ModuleDraft.grow_append (draft : ModuleDraft) (owner : PartId)
    (first second : List Addition) :
    draft.grow owner (first ++ second) = (draft.grow owner first).grow owner second := by
  simp [grow, added_append]

theorem ClassDraft.grow_append (draft : ClassDraft) (owner : PartId)
    (first second : List Addition) :
    draft.grow owner (first ++ second) = (draft.grow owner first).grow owner second := by
  simp [grow, added_append]

namespace Assembly

/-! ## Runs of additions -/

/-- The assembly after additions, one after the other. -/
def addAll (assembly : Assembly) (additions : List Addition) : Assembly :=
  additions.foldl add assembly

theorem addAll_cons (assembly : Assembly) (addition : Addition) (additions : List Addition) :
    assembly.addAll (addition :: additions) = (assembly.add addition).addAll additions := rfl

/-- One addition makes one list of one owner longer. -/
theorem getElem?_modules_add (assembly : Assembly) (addition : Addition) (owner : PartId) :
    (assembly.add addition).modules[owner]? =
      assembly.modules[owner]?.map (·.grow owner [addition]) := by
  cases addition with
  | ofImport target part =>
    by_cases h : target = owner <;>
      simp [add, h, ModuleDraft.grow, added_singleton, Addition.slot, Addition.owner, Addition.part]
  | ofClass target part =>
    by_cases h : target = owner <;>
      simp [add, h, ModuleDraft.grow, added_singleton, Addition.slot, Addition.owner, Addition.part]
  | ofMethod target part => simp [add, ModuleDraft.grow, added_singleton, Addition.slot]
  | ofGetter target part => simp [add, ModuleDraft.grow, added_singleton, Addition.slot]

/-- The same for classes. -/
theorem getElem?_classes_add (assembly : Assembly) (addition : Addition) (owner : PartId) :
    (assembly.add addition).classes[owner]? =
      assembly.classes[owner]?.map (·.grow owner [addition]) := by
  cases addition with
  | ofImport target part => simp [add, ClassDraft.grow, added_singleton, Addition.slot]
  | ofClass target part => simp [add, ClassDraft.grow, added_singleton, Addition.slot]
  | ofMethod target part =>
    by_cases h : target = owner <;>
      simp [add, h, ClassDraft.grow, added_singleton, Addition.slot, Addition.owner, Addition.part]
  | ofGetter target part =>
    by_cases h : target = owner <;>
      simp [add, h, ClassDraft.grow, added_singleton, Addition.slot, Addition.owner, Addition.part]

/-- What grows by each addition grows by all of them. -/
theorem addAll_grows {α : Type} (draft? : Assembly → Option α) (grow : List Addition → α → α)
    (hnil : grow [] = id)
    (happend : ∀ first second, grow (first ++ second) = grow second ∘ grow first)
    (hadd : ∀ assembly addition, draft? (assembly.add addition) =
      (draft? assembly).map (grow [addition]))
    (assembly : Assembly) (additions : List Addition) :
    draft? (assembly.addAll additions) = (draft? assembly).map (grow additions) := by
  induction additions generalizing assembly with
  | nil => rw [hnil, Option.map_id, addAll, List.foldl_nil, id]
  | cons addition additions ih =>
    rw [addAll_cons, ih, hadd, Option.map_map, ← happend, List.singleton_append]

/-- **A run of additions makes the lists of a module longer** by what was added to them. -/
theorem getElem?_modules_addAll (assembly : Assembly) (additions : List Addition)
    (owner : PartId) :
    (assembly.addAll additions).modules[owner]? =
      assembly.modules[owner]?.map (·.grow owner additions) := by
  refine addAll_grows (·.modules[owner]?) (fun added draft => draft.grow owner added) ?_
    (fun first second => ?_)
    (fun assembly addition => getElem?_modules_add assembly addition owner) assembly additions
  · exact funext fun draft => draft.grow_nil owner
  · exact funext fun draft => draft.grow_append owner first second

/-- **A run of additions makes the lists of a class longer** by what was added to them. -/
theorem getElem?_classes_addAll (assembly : Assembly) (additions : List Addition)
    (owner : PartId) :
    (assembly.addAll additions).classes[owner]? =
      assembly.classes[owner]?.map (·.grow owner additions) := by
  refine addAll_grows (·.classes[owner]?) (fun added draft => draft.grow owner added) ?_
    (fun first second => ?_)
    (fun assembly addition => getElem?_classes_add assembly addition owner) assembly additions
  · exact funext fun draft => draft.grow_nil owner
  · exact funext fun draft => draft.grow_append owner first second

/-- The parts that have no lists stay as they are. -/
theorem parts_addAll (assembly : Assembly) (additions : List Addition) :
    (assembly.addAll additions).imports = assembly.imports ∧
      (assembly.addAll additions).methods = assembly.methods ∧
      (assembly.addAll additions).getters = assembly.getters := by
  induction additions generalizing assembly with
  | nil => exact ⟨rfl, rfl, rfl⟩
  | cons addition additions ih =>
    obtain ⟨himports, hmethods, hgetters⟩ := ih (assembly.add addition)
    rw [addAll_cons, himports, hmethods, hgetters]
    cases addition <;> exact ⟨rfl, rfl, rfl⟩

/-- Runs that add the same to every list leave the same assembly. -/
theorem addAll_eq {first second : List Addition} (h : SameLists first second)
    (assembly : Assembly) : assembly.addAll first = assembly.addAll second := by
  have hmodules : (assembly.addAll first).modules = (assembly.addAll second).modules := by
    refine List.ext_getElem? fun owner => ?_
    rw [getElem?_modules_addAll, getElem?_modules_addAll]
    exact congrArg (Option.map · _) (funext fun draft => draft.grow_congr h owner)
  have hclasses : (assembly.addAll first).classes = (assembly.addAll second).classes := by
    refine List.ext_getElem? fun owner => ?_
    rw [getElem?_classes_addAll, getElem?_classes_addAll]
    exact congrArg (Option.map · _) (funext fun draft => draft.grow_congr h owner)
  obtain ⟨himports, hmethods, hgetters⟩ := parts_addAll assembly first
  obtain ⟨himports', hmethods', hgetters'⟩ := parts_addAll assembly second
  rw [Assembly.mk.injEq]
  exact ⟨himports.trans himports'.symm, hmethods.trans hmethods'.symm,
    hgetters.trans hgetters'.symm, hclasses, hmodules⟩

/-! ## What the texts go by -/

/-- The text of the class of a number, if there is one. -/
def classText? (assembly : Assembly) (part : PartId) : Option String :=
  (assembly.class? part).map ClassDecl.render

/-- The text of the module of a number, if there is one. -/
def moduleText? (assembly : Assembly) (part : PartId) : Option String :=
  (assembly.module? part).map Module.render

/-- A class after additions: its members are those that it had, and those that were added to it. -/
theorem class?_addAll (assembly : Assembly) (additions : List Addition) (part : PartId) :
    (assembly.addAll additions).class? part =
      assembly.classes[part]?.map fun draft => assembly.readClass (draft.grow part additions) := by
  obtain ⟨-, hmethods, hgetters⟩ := parts_addAll assembly additions
  rw [class?, getElem?_classes_addAll, Option.map_map]
  refine congrArg (Option.map · _) (funext fun draft => ?_)
  simp only [Function.comp_apply, readClass, hmethods, hgetters]

/-- The texts of all modules and classes go by the lists alone. -/
structure TextsFollowLists (assembly : Assembly) : Prop where
  /-- Runs that add the same to every list give the same texts. -/
  texts : ∀ first second, SameLists first second →
    (∀ part, (assembly.addAll first).classText? part = (assembly.addAll second).classText? part) ∧
    ∀ part, (assembly.addAll first).moduleText? part = (assembly.addAll second).moduleText? part
  /-- A class may be filled after it was added to a module. -/
  filledLater : ∀ owner part members,
    (∀ member ∈ members, member.slot = .methods ∨ member.slot = .getters) → ∀ unit,
    (assembly.addAll (.ofClass owner part :: members)).moduleText? unit =
      (assembly.addAll (members ++ [.ofClass owner part])).moduleText? unit
  /-- Additions to other classes do not change a class. -/
  apart : ∀ additions part,
    (∀ addition ∈ additions, addition.slot = .methods ∨ addition.slot = .getters →
      addition.owner ≠ part) →
    (assembly.addAll additions).class? part = assembly.class? part
  /-- All methods come before all getters. -/
  methodsFirst : ∀ additions part draft, assembly.classes[part]? = some draft →
    (assembly.addAll additions).classText? part = some ((assembly.readClass draft).header ++
      String.join (((draft.methods ++ added .methods part additions).filterMap
        (assembly.methods[·]?)).map fun method => memberBlock method.render) ++
      String.join (((draft.getters ++ added .getters part additions).filterMap
        (assembly.getters[·]?)).map fun getter => memberBlock getter.render) ++ "\x7d\n")

/-- Adding a class to a module and filling classes are additions to different lists. -/
theorem sameLists_ofClass_members {owner part : PartId} {members : List Addition}
    (h : ∀ member ∈ members, member.slot = .methods ∨ member.slot = .getters) :
    SameLists (.ofClass owner part :: members) (members ++ [.ofClass owner part]) := by
  intro slot target
  have hcons : added slot target (.ofClass owner part :: members) =
      added slot target [.ofClass owner part] ++ added slot target members :=
    added_append slot target [.ofClass owner part] members
  rw [hcons, added_append]
  by_cases hslot : slot = .classes
  · have hmembers : added slot target members = [] := by
      refine added_eq_nil fun member hmember hadds => ?_
      rcases h member hmember with hmember | hmember
      · cases hmember.symm.trans (hadds.1.trans hslot)
      · cases hmember.symm.trans (hadds.1.trans hslot)
    rw [hmembers, List.append_nil, List.nil_append]
  · have hclass : added slot target [.ofClass owner part] = [] := by
      refine added_eq_nil fun addition haddition hadds => hslot ?_
      rw [← hadds.1, List.mem_singleton.1 haddition]
      rfl
    rw [hclass, List.append_nil, List.nil_append]

/-- **The texts follow the lists**, in every assembly: the order of additions counts within each
    list and nowhere else. -/
theorem textsFollowLists (assembly : Assembly) : assembly.TextsFollowLists := by
  constructor
  case texts =>
    intro first second h
    rw [addAll_eq h]
    exact ⟨fun _ => rfl, fun _ => rfl⟩
  case filledLater =>
    intro owner part members hmembers unit
    rw [addAll_eq (sameLists_ofClass_members hmembers)]
  case apart =>
    intro additions part h
    have hmethods : added .methods part additions = [] :=
      added_eq_nil fun addition haddition hadds =>
        h addition haddition (.inl hadds.1) hadds.2
    have hgetters : added .getters part additions = [] :=
      added_eq_nil fun addition haddition hadds =>
        h addition haddition (.inr hadds.1) hadds.2
    rw [class?_addAll, class?]
    simp only [ClassDraft.grow, hmethods, hgetters, List.append_nil]
  case methodsFirst =>
    intro additions part draft hdraft
    have hheader : (assembly.readClass (draft.grow part additions)).header =
        (assembly.readClass draft).header := rfl
    rw [classText?, class?_addAll, hdraft, Option.map_some, Option.map_some, ClassDecl.render,
      hheader]
    simp [ClassDecl.members, readClass, ClassDraft.grow, Function.comp_def, String.append_assoc]

/-- Two modules and two classes, with a method that both classes get. -/
def shopParts : Assembly where
  imports := [{ path := "axios", defaultBinding := some "axios" }]
  methods := [⟨"/items", "list", "get", [], [], true⟩]
  getters := [⟨"cart", "Cart", true⟩]
  classes := [⟨"Shop", true, [], []⟩, ⟨"Cart", false, [], []⟩]
  modules := [{}, {}]

/-- The first class is added to both modules, and then filled, the getter first. -/
def filledLast : List Addition := [.ofClass 0 0, .ofClass 1 0, .ofGetter 0 0, .ofClass 0 1,
  .ofMethod 0 0, .ofMethod 1 0, .ofImport 0 0]

/-- The classes are filled before they are added, in another order. -/
def filledFirst : List Addition := [.ofMethod 1 0, .ofMethod 0 0, .ofGetter 0 0, .ofImport 0 0,
  .ofClass 0 0, .ofClass 0 1, .ofClass 1 0]

theorem textsFollowLists_shop : SameLists filledLast filledFirst ∧
    (∃ text, (shopParts.addAll filledLast).moduleText? 0 = some text ∧
      (shopParts.addAll filledFirst).moduleText? 0 = some text) ∧
    (shopParts.addAll filledLast).moduleText? 1 = (shopParts.addAll filledFirst).moduleText? 1 := by
  have hsame : SameLists filledLast filledFirst := by
    intro slot owner
    rcases owner with _ | _ | owner <;> cases slot <;> rfl
  have htexts := (textsFollowLists shopParts).texts filledLast filledFirst hsame
  refine ⟨hsame, ⟨_, rfl, ?_⟩, htexts.2 1⟩
  exact (htexts.2 0).symm

end Assembly

end ApiScribe.Code

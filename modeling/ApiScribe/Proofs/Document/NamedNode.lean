import ApiScribe.Proofs.Document.FirstError

set_option autoImplicit false

/-! # The node that an error names

The path of an error is one text, and taking it to pieces at its points gives back the keys that
lead to the node in question, if no key has a point of its own. There is one exception: the text of
the root's path is empty, so an empty key right below the root is taken for the root itself. Such a
key is lost from the paths of all that is below it (`pieces_path_iff`).

That a check has keys that lead to its node at all is seen along the list of checks, one lemma
for each of the functions that make it. -/

namespace ApiScribe.Document

/-! ## The node that a check is about -/

/-- A check is about a node within a value, which stands at the end of a path. -/
def Check.IsWithin (path : NodePath) (value : Json) (check : Check) : Prop :=
  (∀ isObject, check.question ≠ .root isObject) ∧
    ∃ keys target, check.path = path ++ keys ∧ LeadsTo value keys target

/-- A check is about children, or about a node within one of them. -/
def Check.IsBelow (path : NodePath) (apis : Json) (check : Check) : Prop :=
  (∃ isObject, check = ⟨path, .children isObject⟩) ∨ ∃ entries, apis = .object entries ∧
    ∃ entry ∈ entries, check.IsWithin (path ++ [entry.1.marked]) entry.2

theorem isWithin_self {path : NodePath} {value : Json} {questions : List Question}
    (h : ∀ isObject, .root isObject ∉ questions) :
    ∀ check ∈ questions.map (Check.mk path), check.IsWithin path value := by
  intro check hcheck
  obtain ⟨question, hquestion, rfl⟩ := List.mem_map.1 hcheck
  exact ⟨fun isObject heq => h isObject (heq ▸ hquestion), [], value, by simp, .here value⟩

theorem root_notMem_endpointQuestions (members : Json.Members) (isObject : Bool) :
    .root isObject ∉ endpointQuestions members := by
  unfold endpointQuestions
  cases verb? members with
  | none => simp
  | some verb => cases verb <;> simp [requestQuestions]

theorem Check.IsBelow.isWithin {path : NodePath} {members : Json.Members} {apis : Json}
    {check : Check} (h : check.IsBelow path apis) (hapis : members.get? "apis" = some apis) :
    check.IsWithin path (.object members) := by
  rcases h with ⟨isObject, rfl⟩ | ⟨entries, rfl, ⟨text, child⟩, hentry, hroot, hwithin⟩
  · exact ⟨by simp, [], _, by simp, .here _⟩
  · obtain ⟨keys, target, hpath, hleads⟩ := hwithin
    exact ⟨hroot, text.marked :: keys, target, by simpa using hpath, .child hapis hentry hleads⟩

mutual

/-- The checks of a node are about what stands there and below. -/
theorem isWithin_of_mem_nodeChecks (path : NodePath) : ∀ value : Json,
    ∀ check ∈ nodeChecks path value, check.IsWithin path value
  | .object members => by
    rw [nodeChecks]
    cases hbelow : childrenChecks? path members with
    | none =>
      refine @isWithin_self path _ (.node true :: .kind _ _ :: endpointQuestions members) ?_
      simpa using root_notMem_endpointQuestions members
    | some below =>
      obtain ⟨apis, hapis, hall⟩ := isBelow_of_childrenChecks? path members below hbelow
      intro check hcheck
      rw [← List.cons_append, ← List.cons_append] at hcheck
      rcases List.mem_append.1 hcheck with hcheck | hcheck
      · exact @isWithin_self path _ (.node true :: .kind _ _ :: containerQuestions members)
          (by simp [containerQuestions]) check hcheck
      · exact (hall check hcheck).isWithin hapis
  | .null | .bool _ | .number _ | .string _ | .array _ =>
    @isWithin_self path _ [.node false] (by simp)

theorem isBelow_of_childrenChecks? (path : NodePath) : ∀ members : List (LooseText × Json),
    ∀ below, childrenChecks? path members = some below → ∃ apis,
      Table.get? members "apis" = some apis ∧ ∀ check ∈ below, check.IsBelow path apis
  | [], _, h => by simp [childrenChecks?] at h
  | (key, value) :: rest, below, h => by
    rw [childrenChecks?] at h
    rw [Table.get?]
    split at h
    · obtain rfl := Option.some.inj h
      exact ⟨value, if_pos ‹_›, isBelow_of_mem_childrenChecks path value⟩
    · rw [if_neg ‹_›]
      exact isBelow_of_childrenChecks? path rest below h

theorem isBelow_of_mem_childrenChecks (path : NodePath) : ∀ value : Json,
    ∀ check ∈ childrenChecks path value, check.IsBelow path value
  | .object entries, check, hcheck => by
    rw [childrenChecks] at hcheck
    rcases List.mem_cons.1 hcheck with rfl | hcheck
    · exact .inl ⟨true, rfl⟩
    · obtain ⟨entry, hentry, hwithin⟩ := isWithin_of_mem_entryChecks path entries check hcheck
      exact .inr ⟨entries, rfl, entry, hentry, hwithin⟩
  | .null, _, hcheck | .bool _, _, hcheck | .number _, _, hcheck | .string _, _, hcheck
  | .array _, _, hcheck => .inl ⟨false, List.mem_singleton.1 hcheck⟩

theorem isWithin_of_mem_entryChecks (path : NodePath) : ∀ entries : List (LooseText × Json),
    ∀ check ∈ entryChecks path entries,
      ∃ entry ∈ entries, check.IsWithin (path ++ [entry.1.marked]) entry.2
  | [], check, hcheck => by simp [entryChecks] at hcheck
  | (key, value) :: rest, check, hcheck => by
    rw [entryChecks] at hcheck
    rcases List.mem_append.1 hcheck with hcheck | hcheck
    · exact ⟨(key, value), List.mem_cons_self ..,
        isWithin_of_mem_nodeChecks (path ++ [key.marked]) value check hcheck⟩
    · obtain ⟨entry, hentry, hwithin⟩ := isWithin_of_mem_entryChecks path rest check hcheck
      exact ⟨entry, List.mem_cons_of_mem _ hentry, hwithin⟩

end

/-- A check is about the root or about a node to which keys lead. -/
theorem isWithin_of_mem_checks {document : Json} {check : Check} (h : check ∈ checks document)
    (hpath : check.path ≠ []) : check.IsWithin [] document := by
  cases document with
  | object members =>
    rw [checks, List.cons_append] at h
    rcases List.mem_cons.1 h with rfl | h
    · exact absurd rfl hpath
    rcases List.mem_append.1 h with h | h
    · obtain ⟨question, -, rfl⟩ := List.mem_map.1 h
      exact absurd rfl hpath
    cases hbelow : childrenChecks? [] members with
    | none =>
      rw [hbelow] at h
      obtain rfl := List.mem_singleton.1 h
      exact absurd rfl hpath
    | some below =>
      rw [hbelow] at h
      obtain ⟨apis, hapis, hall⟩ := isBelow_of_childrenChecks? [] members below hbelow
      exact (hall check h).isWithin hapis
  | _ =>
    obtain rfl := List.mem_singleton.1 h
    exact absurd rfl hpath

/-! ## Paths and their pieces -/

/-- The pieces of a text between points. -/
def pieces (text : String) : List String := (text.split '.').toList.map (·.copy)

/-- No key on the way to a node contains a point. -/
def KeysWithoutPoints (document : Json) : Prop :=
  ∀ keys target, LeadsTo document keys target → ∀ key ∈ keys, '.' ∉ key.toList

theorem pieces_intercalate {keys : List String} (hne : keys ≠ [])
    (h : ∀ key ∈ keys, '.' ∉ key.toList) : pieces (".".intercalate keys) = keys :=
  (String.toList_split_intercalate h).trans (if_neg hne)

theorem pieces_empty : pieces "" = [""] := by
  rw [pieces, String.toList_split_char]
  rfl

/-- A path has no more pieces than keys. -/
theorem length_pieces_joined_le {path : NodePath} (hne : path ≠ [])
    (h : ∀ key ∈ path, '.' ∉ key.toList) : (pieces (joined path)).length ≤ path.length := by
  have hsublist : (path.dropWhile (· = "")).Sublist path := List.dropWhile_sublist _
  unfold joined
  by_cases hkept : path.dropWhile (· = "") = []
  · rw [hkept, String.intercalate_nil, pieces_empty]
    exact List.length_pos_iff.2 hne
  · rw [pieces_intercalate hkept fun key hkey => h key (hsublist.subset hkey)]
    exact hsublist.length_le

/-- The pieces of a path are its keys, unless the first key is empty and not the only one. -/
theorem pieces_joined_iff {path : NodePath} (hne : path ≠ [])
    (h : ∀ key ∈ path, '.' ∉ key.toList) :
    pieces (joined path) = path ↔ path.head? ≠ some "" ∨ path = [""] := by
  obtain ⟨first, rest, rfl⟩ := List.exists_cons_of_ne_nil hne
  by_cases hfirst : first = ""
  · subst hfirst
    have hlost : joined ("" :: rest) = joined rest := by
      rw [joined, List.dropWhile_cons_of_pos (by simp), joined]
    rw [hlost]
    constructor
    · intro hpieces
      -- the first key is lost, so what is left has too few pieces if it has keys
      by_cases hrest : rest = []
      · exact .inr (by rw [hrest])
      · have hlength := length_pieces_joined_le hrest fun key hkey =>
          h key (List.mem_cons_of_mem _ hkey)
        rw [hpieces, List.length_cons] at hlength
        omega
    · rintro (hhead | hempty)
      · exact absurd rfl hhead
      · obtain rfl : rest = [] := (List.cons.inj hempty).2
        exact pieces_empty
  · have hkept : joined (first :: rest) = ".".intercalate (first :: rest) := by
      rw [joined, List.dropWhile_cons_of_neg (by simpa using hfirst)]
    rw [hkept, pieces_intercalate hne h]
    simp [hfirst]

/-- Only one key can stand behind an empty path, an empty one. -/
theorem joined_eq_empty_iff {path : NodePath} (h : pieces (joined path) = path) :
    joined path = "" ↔ path = [""] := by
  constructor
  · intro hempty
    rw [hempty, pieces_empty] at h
    exact h.symm
  · rintro rfl
    rfl

/-- A path is reported with the keys for its pieces, if it has them and is not left out. -/
theorem exists_reportedPath_iff {check : Check}
    (hroot : ∀ isObject, check.question ≠ .root isObject) :
    (∃ text, check.reportedPath = some text ∧ pieces text = check.path) ↔
      pieces (joined check.path) = check.path ∧
        (check.path = [""] → ∀ isObject, check.question ≠ .children isObject) := by
  obtain ⟨path, question⟩ := check
  cases question with
  | root isObject => exact absurd rfl (hroot isObject)
  | children isObject =>
    simp only [Check.reportedPath, Option.ite_none_left_eq_some, Option.some.injEq]
    constructor
    · rintro ⟨text, ⟨hne, rfl⟩, hpieces⟩
      exact ⟨hpieces, fun hpath => absurd ((joined_eq_empty_iff hpieces).2 hpath) hne⟩
    · rintro ⟨hpieces, hnot⟩
      refine ⟨joined path, ⟨fun hempty => ?_, rfl⟩, hpieces⟩
      exact hnot ((joined_eq_empty_iff hpieces).1 hempty) isObject rfl
  | _ => simp [Check.reportedPath]

/-- **The node that a path names.** A document is refused with a path whose pieces are the keys that
    lead to the node in question, unless the first of them is empty: then only the empty path of a
    child of the root is right, and this is not reported for its children. -/
theorem pieces_path_iff {document : Json} {check : Check}
    (hfirst : IsFirstFailing (checks document) check) (hbelow : check.path ≠ [])
    (hpoints : KeysWithoutPoints document) (scopes : Scopes) :
    ∃ node error, LeadsTo document check.path node ∧ read scopes document = .error error ∧
      ((∃ text, error.path? = some text ∧ pieces text = check.path) ↔
        check.path.head? ≠ some "" ∨
          check.path = [""] ∧ ∀ isObject, check.question ≠ .children isObject) := by
  obtain ⟨hroot, keys, node, hkeys, hleads⟩ := isWithin_of_mem_checks hfirst.mem hbelow
  obtain rfl : check.path = keys := hkeys
  refine ⟨node, check.error, hleads, read_of_firstFailing hfirst scopes, ?_⟩
  rw [check.path?_error, exists_reportedPath_iff hroot,
    pieces_joined_iff hbelow (hpoints check.path node hleads)]
  constructor
  · rintro ⟨hhead | hpath, hnot⟩
    · exact .inl hhead
    · exact .inr ⟨hpath, hnot hpath⟩
  · rintro (hhead | ⟨hpath, hnot⟩)
    · exact ⟨.inl hhead, fun hpath => absurd (by rw [hpath]; rfl) hhead⟩
    · exact ⟨.inr hpath, fun _ => hnot⟩

/-- Keys without points, object by object. -/
theorem keysWithoutPoints_object_iff {members : Json.Members} :
    KeysWithoutPoints (.object members) ↔ ∀ entries,
      members.get? "apis" = some (.object entries) → ∀ entry ∈ entries,
        '.' ∉ entry.1.marked.toList ∧ KeysWithoutPoints entry.2 := by
  constructor
  · rintro h entries hapis ⟨text, child⟩ hentry
    refine ⟨h [text.marked] child (.child hapis hentry (.here child)) _ (by simp), ?_⟩
    intro keys target hleads key hkey
    exact h (text.marked :: keys) target (.child hapis hentry hleads) key
      (List.mem_cons_of_mem _ hkey)
  · intro h keys target hleads
    cases hleads with
    | here => simp
    | child hapis hentry hrest =>
      obtain ⟨hkey, hbelow⟩ := h _ hapis _ hentry
      intro key hmem
      rcases List.mem_cons.1 hmem with rfl | hmem
      · exact hkey
      · exact hbelow _ _ hrest key hmem

/-- An endpoint without a method, below a group. -/
def silentDocument (group endpoint : LooseText) : Json :=
  .object [("apis", .object [(group, .object [("apis", .object [(endpoint, .object [])])])])]

theorem keysWithoutPoints_silentDocument {group endpoint : LooseText}
    (hgroup : '.' ∉ group.marked.toList) (hendpoint : '.' ∉ endpoint.marked.toList) :
    KeysWithoutPoints (silentDocument group endpoint) := by
  simp [silentDocument, keysWithoutPoints_object_iff, Table.get?, hgroup, hendpoint]

theorem isFirstFailing_silentDocument (group endpoint : LooseText) :
    IsFirstFailing (checks (silentDocument group endpoint))
      ⟨[group.marked, endpoint.marked], .method none⟩ :=
  isFirstFailing_iff.2 rfl

/-- A key that is empty and not the first of its path is found in the path. -/
theorem pieces_path_silent : ∃ error,
    IsFirstFailing (checks (silentDocument "pets" "")) ⟨["pets", ""], .method none⟩ ∧
      KeysWithoutPoints (silentDocument "pets" "") ∧
      read {} (silentDocument "pets" "") = .error error ∧
      ∃ text, error.path? = some text ∧ pieces text = ["pets", ""] := by
  have hfirst := isFirstFailing_silentDocument "pets" ""
  have hpoints : KeysWithoutPoints (silentDocument "pets" "") :=
    keysWithoutPoints_silentDocument (by decide) (by decide)
  obtain ⟨node, error, -, hread, hiff⟩ := pieces_path_iff hfirst (by decide) hpoints {}
  exact ⟨error, hfirst, hpoints, hread, hiff.2 (.inl (by decide))⟩

/-- An empty key right below the root is not found in the path. -/
theorem not_pieces_path_silent : ∃ error,
    IsFirstFailing (checks (silentDocument "" "find")) ⟨["", "find"], .method none⟩ ∧
      KeysWithoutPoints (silentDocument "" "find") ∧
      read {} (silentDocument "" "find") = .error error ∧
      error.path? = some "find" ∧
      ¬∃ text, error.path? = some text ∧ pieces text = ["", "find"] := by
  have hfirst := isFirstFailing_silentDocument "" "find"
  refine ⟨_, hfirst, keysWithoutPoints_silentDocument (by decide) (by decide),
    read_of_firstFailing hfirst {}, rfl, ?_⟩
  rintro ⟨text, htext, hpieces⟩
  have hfind : pieces "find" = ["find"] := @pieces_intercalate ["find"] (by simp) (by decide)
  obtain rfl : "find" = text := Option.some.inj htext
  rw [hfind] at hpieces
  exact absurd hpieces (by decide)

end ApiScribe.Document

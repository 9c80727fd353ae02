import ApiScribe.Proofs.Document.Checks
import ApiScribe.Proofs.Document.Places

set_option autoImplicit false

/-! # What the error of a document says

The error of a document is that of its first failing check: it has the complaint of the check, and
a path made from the keys that lead to the node in question (`read_reports`). As a check holds what
it looks at, whatever comes after the first that fails has no part in the error; in the document
this is all that stands behind the node, in its own container and in those around it
(`read_eq_of_sameThrough`).

A path is put together as a text, in which the empty text means the root. So the leading empty
keys of a path are lost, and no others (`dotted_eq_joined`). -/

namespace ApiScribe.Document

/-! ## Dotted paths -/

/-- The keys behind the leading empty ones, with points between them. -/
def joined (path : NodePath) : String := ".".intercalate (path.dropWhile (· = ""))

/-- Behind a path that is not empty, every key comes after a point. -/
theorem foldl_dottedChild {start : String} (h : start ≠ "") (path : NodePath) :
    path.foldl dottedChild start = ".".intercalate (start :: path) := by
  induction path generalizing start with
  | nil => exact String.intercalate_singleton.symm
  | cons key path ih =>
    have hne : start ++ "." ++ key ≠ "" := by simp
    rw [List.foldl_cons, dottedChild, if_neg h, ih hne, String.intercalate_cons_cons]
    cases path with
    | nil => simp [String.append_assoc]
    | cons next path => simp [String.intercalate_cons_cons, String.append_assoc]

/-- A path that is put together from the root on has lost its leading empty keys, and no others. -/
theorem dotted_eq_joined (path : NodePath) : dotted path = joined path := by
  unfold dotted joined
  induction path with
  | nil => rfl
  | cons key path ih =>
    rw [List.foldl_cons, dottedChild, if_pos rfl]
    by_cases hkey : key = ""
    · rw [hkey, List.dropWhile_cons_of_pos (by simp), ih]
    · rw [List.dropWhile_cons_of_neg (by simpa using hkey), foldl_dottedChild hkey]

/-! ## Reports -/

/-- The path that is reported for a check: none for the root as a whole, and none for children if it
    would be empty. -/
def Check.reportedPath : Check → Option String
  | ⟨_, .root _⟩ => none
  | ⟨path, .children _⟩ => if joined path = "" then none else some (joined path)
  | ⟨path, _⟩ => some (joined path)

theorem Check.path?_error (check : Check) : check.error.path? = check.reportedPath := by
  obtain ⟨path, question⟩ := check
  cases question with
  | companion verb isPresent =>
    cases verb <;> simp [error, Error.path?, reportedPath, dotted_eq_joined]
  | _ => simp [error, Error.path?, reportedPath, dotted_eq_joined]

/-- An error reports a check: what it complains of and where, with the place before the complaint if
    there is one to name. -/
structure Reports (check : Check) (error : Error) : Prop where
  reason : error.reason = check.question.complaint
  path : error.path? = check.reportedPath
  located : ∀ path, error.path? = some path → path ≠ "" →
    error.message = path ++ ": " ++ check.question.complaint
  bare : error.path? = none ∨ error.path? = some "" → error.message = check.question.complaint

theorem Check.reports_error (check : Check) : Reports check check.error where
  reason := check.reason_error
  path := check.path?_error
  located := by
    intro path hpath hne
    rw [Error.message, hpath, check.reason_error]
    exact if_neg hne
  bare := by
    rintro (hpath | hpath) <;> rw [Error.message, hpath, check.reason_error]
    · rfl
    · simp [locatedReason]

/-- Two documents have the same checks up to one that fails. -/
def AgreeThrough (check : Check) (document document' : Json) : Prop :=
  ∃ before after after', checks document = before ++ check :: after ∧
    checks document' = before ++ check :: after' ∧ ∀ earlier ∈ before, earlier.Holds

theorem AgreeThrough.isFirstFailing {check : Check} {document document' : Json}
    (h : AgreeThrough check document document') (hfails : ¬check.Holds) :
    IsFirstFailing (checks document') check := by
  obtain ⟨before, _, after', -, hchecks', hbefore⟩ := h
  exact ⟨before, after', hchecks', hbefore, hfails⟩

/-- A document with a failing check is refused with the error of the first. -/
theorem read_of_firstFailing {document : Json} {check : Check}
    (h : IsFirstFailing (checks document) check) (scopes : Scopes) :
    read scopes document = .error check.error := by
  have hdecides := decides_read scopes document
  cases hread : read scopes document with
  | ok result =>
    rw [hread] at hdecides
    exact absurd (hdecides check h.mem) h.fails
  | error e =>
    rw [hread] at hdecides
    obtain ⟨failing, hfirst, rfl⟩ := hdecides
    rw [hfirst.unique h]

/-- **The first failing check** is the one that is reported, whatever comes after it. -/
theorem read_reports {document : Json} (h : ∃ check ∈ checks document, ¬check.Holds)
    (scopes : Scopes) :
    ∃ check error, IsFirstFailing (checks document) check ∧
      read scopes document = .error error ∧ Reports check error ∧
      ∀ scopes' document', AgreeThrough check document document' →
        read scopes' document' = .error error := by
  obtain ⟨check, hfirst⟩ := exists_firstFailing h
  refine ⟨check, check.error, hfirst, read_of_firstFailing hfirst scopes, check.reports_error, ?_⟩
  intro scopes' document' hagree
  exact read_of_firstFailing (hagree.isFirstFailing hfirst.fails) scopes'

/-- A document with two faults, the first of them below the first child of the root. -/
def twoFaultsDocument : Json :=
  .object [("apis", .object [
    ("pets", .object [("apis", .object [("find", .object [("method", .string "find")])])]),
    ("name", .bool true)])]

theorem read_reports_twoFaults :
    (∃ check ∈ checks twoFaultsDocument, ¬check.Holds) ∧
      ∃ error, read {} twoFaultsDocument = .error error ∧
        error.path? = some "pets.find" ∧
        error.message = "pets.find: unsupported method 'find'" ∧
        ∀ scopes document, AgreeThrough ⟨["pets", "find"], .method (some (.string "find"))⟩
          twoFaultsDocument document → read scopes document = .error error := by
  have hfails : ∃ check ∈ checks twoFaultsDocument, ¬check.Holds := by decide
  obtain ⟨check, error, hfirst, hread, hreports, hsame⟩ := read_reports hfails {}
  obtain rfl : check = ⟨["pets", "find"], .method (some (.string "find"))⟩ :=
    hfirst.unique (isFirstFailing_iff.2 rfl)
  have hpath : error.path? = some "pets.find" := hreports.path
  exact ⟨hfails, error, hread, hpath, hreports.located _ hpath (by decide), hsame⟩

/-! ## What stands behind a node -/

theorem childrenChecks?_eq (path : NodePath) (members : List (LooseText × Json)) :
    childrenChecks? path members = (Table.get? members "apis").map (childrenChecks path) := by
  induction members with
  | nil => rfl
  | cons member rest ih =>
    rw [childrenChecks?, Table.get?]
    split
    · rfl
    · exact ih

theorem entryChecks_append (path : NodePath) (entries entries' : List (LooseText × Json)) :
    entryChecks path (entries ++ entries') =
      entryChecks path entries ++ entryChecks path entries' := by
  induction entries with
  | nil => rfl
  | cons entry entries ih =>
    rw [List.cons_append, entryChecks, entryChecks, ih, List.append_assoc]

/-- Two values have a node at the end of the same keys, and are the same up to there: they may
    differ in what stands behind the node in its container, and behind the containers around it. -/
inductive SameThrough (node : Json) : NodePath → Json → Json → Prop
  | here : SameThrough node [] node node
  | child {members members' before after after' : Json.Members} {key : LooseText}
      {value value' : Json} {path : NodePath}
      (hown : ∀ field ∈ ["method", "name", "url"], members.get? field = members'.get? field)
      (hapis : members.get? "apis" = some (.object (before ++ (key, value) :: after)))
      (hapis' : members'.get? "apis" = some (.object (before ++ (key, value') :: after')))
      (hrest : SameThrough node path value value') :
      SameThrough node (key.marked :: path) (.object members) (.object members')

/-- Two lists of checks are the same up to the end of a stretch. -/
def ShareThrough (stretch checks checks' : List Check) : Prop :=
  ∃ before after after', checks = before ++ (stretch ++ after) ∧
    checks' = before ++ (stretch ++ after')

theorem ShareThrough.within {stretch checks checks' : List Check}
    (h : ShareThrough stretch checks checks') (before after after' : List Check) :
    ShareThrough stretch (before ++ (checks ++ after)) (before ++ (checks' ++ after')) := by
  obtain ⟨first, last, last', rfl, rfl⟩ := h
  exact ⟨before ++ first, last ++ after, last' ++ after', by simp, by simp⟩

/-- If the checks in a stretch do not all hold, the lists agree up to the first that fails. -/
theorem agreeThrough_of_shareThrough {document document' : Json} {stretch : List Check}
    (h : ShareThrough stretch (checks document) (checks document'))
    (hfails : ∃ check ∈ stretch, ¬check.Holds) :
    ∃ check, IsFirstFailing (checks document) check ∧ AgreeThrough check document document' := by
  obtain ⟨before, after, after', hchecks, hchecks'⟩ := h
  obtain ⟨check, hstretch, hcheck⟩ := hfails
  obtain ⟨failing, first, last, heq, hfirst, hfailing⟩ :=
    exists_firstFailing ⟨check, List.mem_append_right before hstretch, hcheck⟩
  have hshared : ∀ rest, before ++ (stretch ++ rest) = first ++ failing :: (last ++ rest) := by
    intro rest
    rw [← List.append_assoc, heq, List.append_assoc, List.cons_append]
  rw [hshared] at hchecks hchecks'
  exact ⟨failing, ⟨first, last ++ after, hchecks, hfirst, hfailing⟩,
    first, last ++ after, last ++ after', hchecks, hchecks', hfirst⟩

theorem nodeChecks_of_apis {members entries : Json.Members} {path : NodePath}
    (h : members.get? "apis" = some (.object entries)) :
    nodeChecks path (.object members) =
      (⟨path, .node true⟩ :: ⟨path, .kind true (Table.contains members "method")⟩ ::
        (containerQuestions members).map (Check.mk path) ++ [⟨path, .children true⟩]) ++
          (entryChecks path entries ++ []) := by
  rw [nodeChecks, childrenChecks?_eq, h]
  simp [childrenChecks, Table.contains, h]

theorem checks_of_apis {members entries : Json.Members}
    (h : members.get? "apis" = some (.object entries)) :
    checks (.object members) = (⟨[], .root true⟩ ::
        (containerQuestions members).map (Check.mk []) ++ [⟨[], .children true⟩]) ++
          (entryChecks [] entries ++ []) := by
  rw [checks, childrenChecks?_eq, h]
  simp [childrenChecks]

theorem shareThrough_entries {stretch : List Check} {path : NodePath} {key : LooseText}
    {value value' : Json} (h : ShareThrough stretch (nodeChecks (path ++ [key.marked]) value)
      (nodeChecks (path ++ [key.marked]) value')) (before after after' : Json.Members) :
    ShareThrough stretch (entryChecks path (before ++ (key, value) :: after))
      (entryChecks path (before ++ (key, value') :: after')) := by
  rw [entryChecks_append, entryChecks_append, entryChecks, entryChecks]
  exact h.within _ _ _

/-- Values that are the same through a node have the same checks through those of the node. -/
theorem SameThrough.shareThrough {node value value' : Json} {keys : NodePath}
    (h : SameThrough node keys value value') (path : NodePath) :
    ShareThrough (nodeChecks (path ++ keys) node) (nodeChecks path value)
      (nodeChecks path value') := by
  induction h generalizing path with
  | here => exact ⟨[], [], [], by simp, by simp⟩
  | @child members members' before after after' key value value' keys hown hapis hapis' hrest ih =>
    have hnext := ih (path ++ [key.marked])
    rw [List.append_assoc, List.singleton_append] at hnext
    have hmethod : Table.contains members "method" = Table.contains members' "method" := by
      rw [Table.contains, Table.contains, hown "method" (by simp)]
    have hcontainer : containerQuestions members = containerQuestions members' := by
      rw [containerQuestions, containerQuestions, hown "name" (by simp), hown "url" (by simp)]
    rw [nodeChecks_of_apis hapis, nodeChecks_of_apis hapis', hmethod, hcontainer]
    exact (shareThrough_entries hnext before after after').within _ _ _

/-- **What stands behind a node that is refused**, or behind the containers around it, does not
    matter to the error. -/
theorem read_eq_of_sameThrough {node document document' : Json} {key : String} {path : NodePath}
    (h : SameThrough node (key :: path) document document')
    (hfails : ∃ check ∈ nodeChecks (key :: path) node, ¬check.Holds) (scopes scopes' : Scopes) :
    ∃ error, read scopes document = .error error ∧ read scopes' document' = .error error := by
  have hshare : ShareThrough (nodeChecks (key :: path) node) (checks document)
      (checks document') := by
    cases h with
    | child hown hapis hapis' hrest =>
      rw [checks_of_apis hapis, checks_of_apis hapis', containerQuestions, containerQuestions,
        hown "name" (by simp), hown "url" (by simp)]
      exact (shareThrough_entries (hrest.shareThrough _) _ _ _).within _ _ _
  obtain ⟨check, hfirst, hagree⟩ := agreeThrough_of_shareThrough hshare hfails
  exact ⟨check.error, read_of_firstFailing hfirst scopes,
    read_of_firstFailing (hagree.isFirstFailing hfirst.fails) scopes'⟩

end ApiScribe.Document

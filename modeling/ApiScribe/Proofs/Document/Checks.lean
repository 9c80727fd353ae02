import ApiScribe.Proofs.Document.Language

set_option autoImplicit false

/-! # The checks of a document, in order

Reading a document makes one check after the other and stops at the first that fails. Here the
checks are a list, made from the document alone and without stopping (`checks`): those of a node
before those of its children, and those of a child before those of its next sibling. Each check
holds what it looks at, so two documents with the same checks up to some point are the same to the
reader up to there.

The reader and the list are held together by `Decides`: the reader succeeds if all checks hold,
and otherwise gives the error of the first that does not. The relation goes along with the steps
of the reader (`Decides.bind`), so each function of the reader has one lemma that names its own
checks, and how far the reading has come is never talked of. -/

namespace ApiScribe.Document

/-! ## Checks -/

/-- What a check asks, with what it looks at. -/
inductive Question where
  /-- Whether the root is an object. -/
  | root (isObject : Bool)
  /-- Whether a child is an object. -/
  | node (isObject : Bool)
  /-- Whether a child is not both a group and an endpoint. -/
  | kind (hasChildren hasMethod : Bool)
  /-- Whether a field is nothing, null or a text. -/
  | text (field : String) (member : Option Json)
  /-- Whether the children stand in an object. -/
  | children (isObject : Bool)
  /-- Whether the method is one of the three verbs. -/
  | method (member : Option Json)
  /-- Whether the fields that the verb has no use for are left out. -/
  | companion (verb : Verb) (isPresent : Bool)
  /-- Whether the fields are nothing, null or an object of texts. -/
  | fields (field : String) (member : Option Json)

/-- The answer that lets the reading go on. -/
def Question.Holds : Question → Prop
  | root isObject => isObject = true
  | node isObject => isObject = true
  | kind hasChildren hasMethod => ¬(hasChildren = true ∧ hasMethod = true)
  | text _ member => IsOptionalText member
  | children isObject => isObject = true
  | method member =>
    ∃ content, member = some (.string content) ∧
      Text.upper content.marked ∈ ["GET", "POST", "PUT"]
  | companion _ isPresent => isPresent = false
  | fields _ member => IsOptionalFields member

instance : DecidablePred Question.Holds
  | .root _ | .node _ | .children _ => inferInstanceAs (Decidable (_ = true))
  | .kind _ _ => inferInstanceAs (Decidable ¬(_ ∧ _))
  | .text _ member => inferInstanceAs (Decidable (IsOptionalText member))
  | .method (some (.string content)) =>
    decidable_of_iff (Text.upper content.marked ∈ ["GET", "POST", "PUT"])
      (by simp [Question.Holds])
  | .method none | .method (some .null) | .method (some (.bool _)) | .method (some (.number _))
  | .method (some (.array _)) | .method (some (.object _)) =>
    isFalse (by simp [Question.Holds])
  | .companion _ _ => inferInstanceAs (Decidable (_ = false))
  | .fields _ member => inferInstanceAs (Decidable (IsOptionalFields member))

/-- What is said when the answer is another one. -/
def Question.complaint : Question → String
  | root _ => "schema document must be an object"
  | node _ => "expected an object"
  | kind _ _ => "node has both 'method' and 'apis'"
  | text field _ => "'" ++ field ++ "' must be a string"
  | children _ => "'apis' must be an object"
  | method member => "unsupported method " ++ (member.getD .null).printed
  | companion .get _ => "GET endpoints take 'params', not 'data'"
  | companion verb _ => verb.text ++ " endpoints take 'data', not 'params'"
  | fields field _ => "'" ++ field ++ "' must map names to type strings"

/-- A question about the node to which keys lead. -/
structure Check where
  path : NodePath
  question : Question

/-- The check is passed. -/
def Check.Holds (check : Check) : Prop := check.question.Holds

instance (check : Check) : Decidable check.Holds :=
  inferInstanceAs (Decidable check.question.Holds)

/-- The error of a check that is not passed. -/
def Check.error : Check → Error
  | ⟨_, .root _⟩ => .rootNotObject
  | ⟨path, .node _⟩ => .inNode path .notObject
  | ⟨path, .kind _ _⟩ => .inNode path .endpointAndGroup
  | ⟨path, .text field _⟩ => .inNode path (.fieldNotText field)
  | ⟨path, .children _⟩ => .inNode path .childrenNotObject
  | ⟨path, .method member⟩ => .inNode path (.unsupportedMethod (member.getD .null))
  | ⟨path, .companion .get _⟩ => .inNode path .bodyOfGet
  | ⟨path, .companion verb _⟩ => .inNode path (.queryBeside verb.text)
  | ⟨path, .fields field _⟩ => .inNode path (.fieldsNotTexts field)

/-- An error says what the check that it belongs to complains of. -/
theorem Check.reason_error (check : Check) : check.error.reason = check.question.complaint := by
  obtain ⟨path, question⟩ := check
  cases question with
  | companion verb isPresent => cases verb <;> rfl
  | _ => rfl

/-! ## The checks of a document -/

/-- The questions about the fields of a request. -/
def requestQuestions (members : Json.Members) : Verb → List Question
  | .get => [.companion .get (Table.contains members "data"),
      .fields "params" (members.get? "params")]
  | verb => [.companion verb (Table.contains members "params"),
      .fields "data" (members.get? "data")]

/-- The questions about an endpoint. Those about its fields depend on its verb. -/
def endpointQuestions (members : Json.Members) : List Question :=
  [.method (members.get? "method"), .text "url" (members.get? "url")] ++
    match verb? members with
    | none => []
    | some verb => requestQuestions members verb

/-- The questions about the texts of a container. -/
def containerQuestions (members : Json.Members) : List Question :=
  [.text "name" (members.get? "name"), .text "url" (members.get? "url")]

mutual

/-- The checks of a child and of all below it. -/
def nodeChecks (path : NodePath) : Json → List Check
  | .object members =>
    ⟨path, .node true⟩ ::
      ⟨path, .kind (Table.contains members "apis") (Table.contains members "method")⟩ ::
        match childrenChecks? path members with
        | none => (endpointQuestions members).map (Check.mk path)
        | some below => (containerQuestions members).map (Check.mk path) ++ below
  | _ => [⟨path, .node false⟩]

/-- The checks of what stands under `apis`, if something does. -/
def childrenChecks? (path : NodePath) : List (LooseText × Json) → Option (List Check)
  | [] => none
  | (key, value) :: rest =>
    if key = "apis" then some (childrenChecks path value) else childrenChecks? path rest

/-- The checks of the children of a node. -/
def childrenChecks (path : NodePath) : Json → List Check
  | .object entries => ⟨path, .children true⟩ :: entryChecks path entries
  | _ => [⟨path, .children false⟩]

/-- The checks of child after child. -/
def entryChecks (path : NodePath) : List (LooseText × Json) → List Check
  | [] => []
  | (key, value) :: rest => nodeChecks (path ++ [key.marked]) value ++ entryChecks path rest

end

/-- The checks of a document. A root without `apis` passes as one without children. -/
def checks : Json → List Check
  | .object members =>
    ⟨[], .root true⟩ :: (containerQuestions members).map (Check.mk []) ++
      (childrenChecks? [] members).getD [⟨[], .children true⟩]
  | _ => [⟨[], .root false⟩]

/-! ## Deciding by the first failing check -/

/-- A check fails, and all before it hold. -/
def IsFirstFailing (checks : List Check) (check : Check) : Prop :=
  ∃ before after, checks = before ++ check :: after ∧ (∀ earlier ∈ before, earlier.Holds) ∧
    ¬check.Holds

/-- Checks decide a computation: it succeeds if all hold, and fails with the error of the first that
    does not. -/
def Decides {α : Type} (checks : List Check) : Except Error α → Prop
  | .ok _ => ∀ check ∈ checks, check.Holds
  | .error e => ∃ check, IsFirstFailing checks check ∧ check.error = e

theorem isFirstFailing_iff {checks : List Check} {check : Check} :
    IsFirstFailing checks check ↔ checks.find? (¬·.Holds) = some check := by
  simp only [List.find?_eq_some_iff_append, decide_not, Bool.not_not, Bool.not_eq_true',
    decide_eq_false_iff_not, decide_eq_true_eq]
  constructor
  · rintro ⟨before, after, hchecks, hbefore, hfails⟩
    exact ⟨hfails, before, after, hchecks, hbefore⟩
  · rintro ⟨hfails, before, after, hchecks, hbefore⟩
    exact ⟨before, after, hchecks, hbefore, hfails⟩

theorem IsFirstFailing.unique {checks : List Check} {check check' : Check}
    (h : IsFirstFailing checks check) (h' : IsFirstFailing checks check') : check = check' :=
  Option.some.inj ((isFirstFailing_iff.1 h).symm.trans (isFirstFailing_iff.1 h'))

theorem IsFirstFailing.mem {checks : List Check} {check : Check}
    (h : IsFirstFailing checks check) : check ∈ checks :=
  List.mem_of_find?_eq_some (isFirstFailing_iff.1 h)

theorem IsFirstFailing.fails {checks : List Check} {check : Check}
    (h : IsFirstFailing checks check) : ¬check.Holds := by
  obtain ⟨_, _, _, _, hfails⟩ := h
  exact hfails

/-- Of checks that do not all hold there is a first that fails. -/
theorem exists_firstFailing {checks : List Check} (h : ∃ check ∈ checks, ¬check.Holds) :
    ∃ check, IsFirstFailing checks check := by
  have hsome : (checks.find? (¬·.Holds)).isSome = true := by
    rw [List.find?_isSome]
    simpa using h
  obtain ⟨check, hcheck⟩ := Option.isSome_iff_exists.1 hsome
  exact ⟨check, isFirstFailing_iff.2 hcheck⟩

namespace Decides

variable {α β : Type}

theorem pure (a : α) : Decides [] (.ok a : Except Error α) := by
  simp [Decides]

/-- A check that fails is the first of those that begin with it. -/
theorem fails {path : NodePath} {question : Question} (h : ¬question.Holds) {e : Error}
    (herror : Check.error ⟨path, question⟩ = e) (rest : List Check) :
    Decides (⟨path, question⟩ :: rest) (.error e : Except Error α) :=
  ⟨⟨path, question⟩, ⟨[], rest, rfl, by simp, h⟩, herror⟩

/-- A check that holds leaves the decision to the rest. -/
theorem cons {path : NodePath} {question : Question} (h : question.Holds) {rest : List Check}
    {x : Except Error α} (hrest : Decides rest x) : Decides (⟨path, question⟩ :: rest) x := by
  cases x with
  | ok a =>
    intro other hother
    rcases List.mem_cons.1 hother with rfl | hother
    · exact h
    · exact hrest other hother
  | error e =>
    obtain ⟨failing, ⟨before, after, rfl, hbefore, hfailing⟩, herror⟩ := hrest
    refine ⟨failing, ⟨⟨path, question⟩ :: before, after, rfl, ?_, hfailing⟩, herror⟩
    intro earlier hearlier
    rcases List.mem_cons.1 hearlier with rfl | hearlier
    · exact h
    · exact hbefore earlier hearlier

/-- A computation that makes one check. -/
theorem single {path : NodePath} {question : Question} {x : Except Error α}
    (hok : (∃ a, x = .ok a) ↔ question.Holds)
    (herror : ∀ e, x = .error e → Check.error ⟨path, question⟩ = e) :
    Decides [⟨path, question⟩] x := by
  cases x with
  | ok a => exact cons (hok.1 ⟨a, rfl⟩) (pure a)
  | error e => exact fails (fun hholds => by simpa using hok.2 hholds) (herror e rfl) []

/-- One step after the other. -/
theorem bind {first second : List Check} {x : Except Error α} {f : α → Except Error β}
    (hfirst : Decides first x) (hsecond : ∀ a, Decides second (f a)) :
    Decides (first ++ second) (x >>= f) := by
  cases x with
  | ok a =>
    show Decides (first ++ second) (f a)
    have hall : ∀ check ∈ first, check.Holds := hfirst
    clear hfirst
    induction first with
    | nil => exact hsecond a
    | cons check first ih =>
      exact cons (hall check (List.mem_cons_self ..))
        (ih fun other hother => hall other (List.mem_cons_of_mem _ hother))
  | error e =>
    obtain ⟨failing, ⟨before, after, rfl, hbefore, hfailing⟩, herror⟩ := hfirst
    refine ⟨failing, ⟨before, after ++ second, ?_, hbefore, hfailing⟩, herror⟩
    rw [List.append_assoc, List.cons_append]

theorem map {checks : List Check} {x : Except Error α} (f : α → β) (h : Decides checks x) :
    Decides checks (f <$> x) := by
  cases x <;> exact h

end Decides

/-! ## What the reader decides -/

theorem decides_optionalText (members : Json.Members) (field : String) (path : NodePath) :
    Decides [⟨path, .text field (members.get? field)⟩] (optionalText members field path) := by
  refine .single ((exists_congr fun _ => optionalText_eq_ok_iff).trans exists_holdsText_iff) ?_
  intro e he
  unfold optionalText at he
  split at he <;> simp_all [Check.error]

theorem decides_optionalFields (members : Json.Members) (field : String) (path : NodePath) :
    Decides [⟨path, .fields field (members.get? field)⟩] (optionalFields members field path) := by
  refine .single ((exists_congr fun _ => optionalFields_eq_ok_iff).trans exists_holdsFields_iff) ?_
  intro e he
  unfold optionalFields at he
  split at he
  · cases he
  · cases he
  · split at he <;> simp_all [Check.error]
  · simp_all [Check.error]

/-- Fields beside a companion that has to be absent. -/
theorem decides_guarded_map {members : Json.Members} {verb : Verb} {field companion : String}
    {path : NodePath} {make : Option Fields → Request} {error : Error}
    (herror : ∀ isPresent, Check.error ⟨path, .companion verb isPresent⟩ = error) :
    Decides [⟨path, .companion verb (Table.contains members companion)⟩,
        ⟨path, .fields field (members.get? field)⟩]
      (if Table.contains members companion then .error error
        else make <$> optionalFields members field path) := by
  cases hcompanion : Table.contains members companion with
  | true => exact .fails (by simp [Question.Holds]) (herror true) _
  | false =>
    exact .cons (by simp [Question.Holds])
      ((decides_optionalFields members field path).map make)

theorem decides_readRequest (members : Json.Members) (path : NodePath) (verb : Verb) :
    Decides ((requestQuestions members verb).map (Check.mk path))
      (readRequest members path verb) := by
  cases verb <;> exact decides_guarded_map fun _ => rfl

/-- The method is one of the three verbs exactly if it gives one. -/
theorem isSome_verb?_iff {members : Json.Members} :
    (verb? members).isSome ↔ (Question.method (members.get? "method")).Holds := by
  rw [Option.isSome_iff_exists]
  constructor
  · rintro ⟨verb, hverb⟩
    obtain ⟨content, hmethod, hupper⟩ := verb?_eq_some_iff.1 hverb
    refine ⟨content, hmethod, ?_⟩
    rw [hupper]
    cases verb <;> decide
  · rintro ⟨content, hmethod, hupper⟩
    obtain ⟨verb, hverb⟩ : ∃ verb : Verb, Text.upper content.marked = verb.text := by
      rcases List.mem_cons.1 hupper with hget | hupper
      · exact ⟨.get, hget⟩
      · rcases List.mem_cons.1 hupper with hpost | hput
        · exact ⟨.post, hpost⟩
        · exact ⟨.put, List.mem_singleton.1 hput⟩
    exact ⟨verb, verb?_eq_some_iff.2 ⟨content, hmethod, hverb⟩⟩

theorem decides_readEndpoint (members : Json.Members) (scope : ScopeId) (path : NodePath) :
    Decides ((endpointQuestions members).map (Check.mk path))
      (readEndpoint members scope path) := by
  unfold readEndpoint endpointQuestions
  cases hverb : verb? members with
  | none =>
    have hmethod : ¬(Question.method (members.get? "method")).Holds := by
      rw [← isSome_verb?_iff, hverb]
      decide
    exact .fails hmethod rfl _
  | some verb =>
    have hmethod : (Question.method (members.get? "method")).Holds := by
      rw [← isSome_verb?_iff, hverb]
      rfl
    rw [List.map_append, List.map_cons, List.cons_append]
    refine .cons hmethod ?_
    refine (decides_optionalText members "url" path).bind fun url => ?_
    rw [bind_pure_comp]
    exact (decides_readRequest members path verb).map _

mutual

/-- **The checks of a child** and of all below it decide whether it is read, under any path and with
    any scopes. -/
theorem decides_readNode (parent : ScopeId) (path : NodePath) (scopes : Scopes) :
    ∀ value : Json, Decides (nodeChecks path value) (readNode parent path scopes value)
  | .object members => by
    rw [nodeChecks, readNode]
    refine .cons (by simp [Question.Holds]) ?_
    by_cases hboth : (Table.contains members "apis" && Table.contains members "method") = true
    · rw [if_pos hboth]
      exact .fails (by simpa [Question.Holds] using hboth) rfl _
    rw [if_neg hboth]
    refine .cons (by simpa [Question.Holds] using hboth) ?_
    dsimp only
    rcases decides_readChildren? (scopes.createWithin parent []).1 path
      (scopes.createWithin parent []).2 members with
      ⟨hchecks, hread⟩ | ⟨below, x, hchecks, hread, hbelow⟩
    · -- an endpoint
      rw [hchecks, hread]
      dsimp only
      rw [bind_pure_comp]
      exact (decides_readEndpoint members _ path).map _
    · -- a group
      rw [hchecks, hread]
      dsimp only
      rw [containerQuestions, List.map_cons, List.map_cons, List.map_nil]
      refine (decides_optionalText members "name" path).bind fun name => ?_
      refine (decides_optionalText members "url" path).bind fun url => ?_
      rw [bind_pure_comp]
      exact hbelow.map _
  | .null | .bool _ | .number _ | .string _ | .array _ =>
    .fails (by simp [Question.Holds]) rfl _

/-- What stands under `apis` is found by the reader and in the list of checks alike. -/
theorem decides_readChildren? (scope : ScopeId) (path : NodePath) (scopes : Scopes) :
    ∀ members : List (LooseText × Json),
    (childrenChecks? path members = none ∧ readChildren? scope path scopes members = none) ∨
      ∃ checks x, childrenChecks? path members = some checks ∧
        readChildren? scope path scopes members = some x ∧ Decides checks x
  | [] => .inl ⟨rfl, rfl⟩
  | (key, value) :: rest => by
    rw [childrenChecks?, readChildren?]
    split
    · exact .inr ⟨_, _, rfl, rfl, decides_readChildren scope path scopes value⟩
    · exact decides_readChildren? scope path scopes rest

theorem decides_readChildren (scope : ScopeId) (path : NodePath) (scopes : Scopes) :
    ∀ value : Json, Decides (childrenChecks path value) (readChildren scope path scopes value)
  | .object entries =>
    .cons (by simp [Question.Holds]) (decides_readEntries scope path scopes entries)
  | .null | .bool _ | .number _ | .string _ | .array _ =>
    .fails (by simp [Question.Holds]) rfl _

theorem decides_readEntries (scope : ScopeId) (path : NodePath) (scopes : Scopes) :
    ∀ entries : List (LooseText × Json),
    Decides (entryChecks path entries) (readEntries scope path scopes entries)
  | [] => .pure _
  | (key, value) :: rest => by
    rw [entryChecks, readEntries]
    refine (decides_readNode scope (path ++ [key.marked]) scopes value).bind fun result => ?_
    dsimp only
    rw [bind_pure_comp]
    exact (decides_readEntries scope path result.2 rest).map _

end

/-- **The checks of a document** decide whether it is read, with any scopes. -/
theorem decides_read (scopes : Scopes) (document : Json) :
    Decides (checks document) (read scopes document) := by
  cases document with
  | object members =>
    rw [checks, read, containerQuestions]
    refine .cons (by simp [Question.Holds]) ?_
    dsimp only
    refine (decides_optionalText members "name" []).bind fun name => ?_
    refine (decides_optionalText members "url" []).bind fun url => ?_
    rw [bind_pure_comp]
    refine .map _ ?_
    rcases decides_readChildren? (scopes.create [] none).1 [] (scopes.create [] none).2 members with
      ⟨hchecks, hread⟩ | ⟨below, x, hchecks, hread, hbelow⟩
    · rw [hchecks, hread]
      exact .cons (by simp [Question.Holds]) (.pure _)
    · rw [hchecks, hread]
      exact hbelow
  | _ => exact .fails (by simp [Question.Holds]) rfl _

end ApiScribe.Document

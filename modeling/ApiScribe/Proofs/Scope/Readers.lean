import ApiScribe.Proofs.Scope.Lineage

set_option autoImplicit false

/-! # Reading and writing after any run

Scopes are made, made inside one another and written to in any order, and steps may be refused. In
every state that is reached so, the scope around a scope is older (`Scopes.wellNested_after`). So
the walk outwards from a scope ends, whichever key it looks for, and the three readers agree on what
it finds: the value of the nearest scope that binds the key, be it null, or that there is none
(`Scopes.ReadsNearest`). A write shows in exactly those scopes that see the written one, which are
those from which the walk meets it before any other scope that binds the key
(`Scopes.WritesNearest`). -/

namespace ApiScribe.Scopes

variable {scopes : Scopes}

/-! ## Runs of steps -/

/-- A step: a scope is made, or made inside another with values given by name, or written to. -/
inductive Step where
  | create (values : Table String Json) (parent : Option ScopeId)
  | createNamed (parent : ScopeId) (values : Table String Json)
  | insert (id : ScopeId) (key : String) (value : Json)

/-- The scopes after a step. A step that is refused changes nothing, and so does one that goes by a
    scope that is not there. -/
def take (scopes : Scopes) : Step → Scopes
  | .create values none => (scopes.create values none).2
  | .create values (some parent) =>
    if parent < scopes.size then (scopes.create values (some parent)).2 else scopes
  | .createNamed parent values =>
    if parent < scopes.size then
      match scopes.createNamed parent values with
      | .ok (_, scopes) => scopes
      | .error _ => scopes
    else scopes
  | .insert id key value => scopes.insert id key value

/-- The scopes after steps, when there were none before. -/
def after (steps : List Step) : Scopes := steps.foldl take {}

/-- The scope around a scope is older. -/
def WellNested (scopes : Scopes) : Prop :=
  ∀ id scope parent, scopes.scope? id = some scope → scope.parent = some parent → parent < id

theorem WellNested.create (h : scopes.WellNested) (values : Table String Json)
    {parent : Option ScopeId} (hparent : ∀ p, parent = some p → p < scopes.size) :
    (scopes.create values parent).2.WellNested := by
  intro id scope p hscope hp
  rcases Nat.lt_or_ge id scopes.size with hid | hid
  · rw [scope?_create_of_lt hid] at hscope
    exact h id scope p hscope hp
  · have hlt : id < scopes.size + 1 := lt_size_of_scope? hscope
    obtain rfl : id = scopes.size := Nat.le_antisymm (Nat.le_of_lt_succ hlt) hid
    rw [scope?_create_self] at hscope
    obtain rfl := Option.some.inj hscope
    exact hparent p hp

theorem WellNested.insert (h : scopes.WellNested) (written : ScopeId) (key : String)
    (value : Json) : (scopes.insert written key value).WellNested := by
  intro id scope parent hscope hparent
  rw [scope?_insert, Option.map_eq_some_iff] at hscope
  obtain ⟨before, hbefore, rfl⟩ := hscope
  refine h id before parent hbefore ?_
  by_cases hid : id = written <;> simpa [hid] using hparent

theorem WellNested.take (h : scopes.WellNested) (step : Step) : (scopes.take step).WellNested := by
  cases step with
  | create values parent =>
    cases parent with
    | none => exact h.create values (by simp)
    | some parent =>
      simp only [Scopes.take]
      split
      · next hparent => exact h.create values fun p hp => Option.some.inj hp ▸ hparent
      · exact h
  | createNamed parent values =>
    simp only [Scopes.take, createNamed]
    split
    · next hparent =>
      by_cases htaken : values.contains ownName = true
      · rw [if_pos htaken]
        exact h
      · rw [if_neg htaken]
        exact h.create values fun p hp => Option.some.inj hp ▸ hparent
    · exact h
  | insert id key value => exact h.insert id key value

/-- In every state that a run reaches, the scope around a scope is older. -/
theorem wellNested_after (steps : List Step) : (after steps).WellNested := by
  suffices ∀ scopes : Scopes, scopes.WellNested → (steps.foldl Scopes.take scopes).WellNested by
    refine this {} ?_
    intro id scope parent hscope
    simp [scope?] at hscope
  induction steps with
  | nil => exact fun _ h => h
  | cons step steps ih => exact fun scopes h => ih _ (h.take step)

/-! ## The walk outwards -/

/-- Every scope has a last one around it. -/
theorem WellNested.exists_lineage (h : scopes.WellNested) {id : ScopeId} (hid : id < scopes.size) :
    ∃ around, scopes.IsLineage (id :: around) := by
  induction id using Nat.strongRecOn with
  | ind id ih =>
    obtain ⟨scope, hscope⟩ : ∃ scope, scopes.scope? id = some scope := by
      cases hscope : scopes.scope? id with
      | none => exact absurd (scope?_eq_none hscope) (Nat.not_le_of_lt hid)
      | some scope => exact ⟨scope, rfl⟩
    cases hparent : scope.parent with
    | none => exact ⟨[], .outermost hscope hparent⟩
    | some parent =>
      have holder := h id scope parent hscope hparent
      obtain ⟨around, haround⟩ := ih parent holder (Nat.lt_trans holder hid)
      exact ⟨parent :: around, .within hscope hparent holder haround⟩

/-- The scopes around a scope get older and older. -/
theorem IsLineage.pairwise {ids : List ScopeId} (h : scopes.IsLineage ids) :
    ids.Pairwise (· > ·) := by
  induction h with
  | outermost => exact List.pairwise_singleton ..
  | within _ _ holder _ ih =>
    refine List.pairwise_cons.2 ⟨?_, ih⟩
    intro other hother
    rcases List.mem_cons.1 hother with rfl | hother
    · exact holder
    · exact Nat.lt_trans ((List.pairwise_cons.1 ih).1 other hother) holder

theorem IsLineage.nodup {ids : List ScopeId} (h : scopes.IsLineage ids) : ids.Nodup :=
  h.pairwise.imp Nat.ne_of_gt

/-- There is one way outwards from a scope. -/
theorem IsLineage.unique {id : ScopeId} {first second : List ScopeId}
    (hfirst : scopes.IsLineage (id :: first)) (hsecond : scopes.IsLineage (id :: second)) :
    first = second := by
  induction first generalizing id second with
  | nil =>
    obtain ⟨scope, hscope, hparent⟩ := hfirst.exists_scope?
    obtain ⟨scope', hscope', hparent'⟩ := hsecond.exists_scope?
    obtain rfl := Option.some.inj (hscope.symm.trans hscope')
    exact (List.head?_eq_none_iff.1 (hparent'.symm.trans hparent)).symm
  | cons parent first ih =>
    obtain ⟨scope, hscope, hparent⟩ := hfirst.exists_scope?
    cases hsecond with
    | outermost hscope' hparent' =>
      obtain rfl := Option.some.inj (hscope.symm.trans hscope')
      cases hparent.symm.trans hparent'
    | within hscope' hparent' _ haround' =>
      obtain rfl := Option.some.inj (hscope.symm.trans hscope')
      obtain rfl := Option.some.inj (hparent.symm.trans hparent')
      cases hfirst with
      | within _ _ _ haround => rw [ih haround haround']

/-- The walk from a scope outwards, which looks for a key. It ends at a scope that binds the key, or
    at the outermost scope. -/
inductive Finds (scopes : Scopes) (key : String) : ScopeId → Option Json → Prop
  | bound {id : ScopeId} {value : Json} (hvalue : scopes.ownValue? id key = some value) :
      Finds scopes key id (some value)
  | outwards {id parent : ScopeId} {scope : Scope} {result : Option Json}
      (hscope : scopes.scope? id = some scope) (hfree : scopes.ownValue? id key = none)
      (hparent : scope.parent = some parent) (hrest : Finds scopes key parent result) :
      Finds scopes key id result
  | nowhere {id : ScopeId} {scope : Scope} (hscope : scopes.scope? id = some scope)
      (hfree : scopes.ownValue? id key = none) (hparent : scope.parent = none) :
      Finds scopes key id none

/-- The walk does not depend on anything but the scopes. -/
theorem Finds.unique {id : ScopeId} {key : String} {first second : Option Json}
    (hfirst : scopes.Finds key id first) (hsecond : scopes.Finds key id second) :
    first = second := by
  induction hfirst with
  | bound hvalue =>
    cases hsecond with
    | bound hvalue' => exact hvalue.symm.trans hvalue'
    | outwards _ hfree' => cases hvalue.symm.trans hfree'
    | nowhere _ hfree' => cases hvalue.symm.trans hfree'
  | outwards hscope hfree hparent _ ih =>
    cases hsecond with
    | bound hvalue' => cases hvalue'.symm.trans hfree
    | outwards hscope' _ hparent' hrest' =>
      obtain rfl := Option.some.inj (hscope.symm.trans hscope')
      obtain rfl := Option.some.inj (hparent.symm.trans hparent')
      exact ih hrest'
    | nowhere hscope' _ hparent' =>
      obtain rfl := Option.some.inj (hscope.symm.trans hscope')
      cases hparent.symm.trans hparent'
  | nowhere hscope hfree hparent =>
    cases hsecond with
    | bound hvalue' => cases hvalue'.symm.trans hfree
    | outwards hscope' _ hparent' =>
      obtain rfl := Option.some.inj (hscope.symm.trans hscope')
      cases hparent.symm.trans hparent'
    | nowhere => rfl

/-- The walk ends, with what the scopes around give. -/
theorem IsLineage.finds {id : ScopeId} {around : List ScopeId}
    (h : scopes.IsLineage (id :: around)) (key : String) :
    scopes.Finds key id ((id :: around).findSome? (scopes.ownValue? · key)) := by
  induction around generalizing id with
  | nil =>
    cases h with
    | outermost hscope hparent =>
      cases hvalue : scopes.ownValue? id key with
      | some value => simpa [hvalue] using Finds.bound hvalue
      | none => simpa [hvalue] using Finds.nowhere hscope hvalue hparent
  | cons parent around ih =>
    cases h with
    | within hscope hparent _ haround =>
      rw [List.findSome?_cons]
      cases hvalue : scopes.ownValue? id key with
      | some value => exact .bound hvalue
      | none => exact .outwards hscope hvalue hparent (ih haround)

/-! ## The three readers -/

/-- What the readers say about a key in a scope: its value or that it is unbound, whether it is
    bound, and its value or the default. -/
def readings (scopes : Scopes) (id : ScopeId) (key : String) (default : Json) :
    Except UnboundKey Json × Bool × Json :=
  (scopes.get id key, scopes.contains id key, scopes.getD id key default)

theorem readings_congr {later : Scopes} {id : ScopeId} {key : String}
    (h : later.get? id key = scopes.get? id key) (default : Json) :
    later.readings id key default = scopes.readings id key default := by
  unfold readings get contains getD
  rw [h]

theorem readings_of_get? {id : ScopeId} {key : String} {value : Json}
    (h : scopes.get? id key = some value) (default : Json) :
    scopes.readings id key default = (.ok value, true, value) := by
  unfold readings get contains getD
  rw [h]
  rfl

/-- A scope is read by the nearest of the scopes around it that binds a key, itself included. -/
structure ReadsNearest (scopes : Scopes) (id : ScopeId) (around : List ScopeId) : Prop where
  /-- The way outwards ends. -/
  lineage : scopes.IsLineage (id :: around)
  /-- It comes to no scope twice. -/
  acyclic : (id :: around).Nodup
  /-- The walk along it ends with one result, which the readers go by. -/
  walk : ∀ key result, scopes.Finds key id result ↔ result = scopes.get? id key
  /-- A key that cannot be read is one that is bound nowhere on the way. -/
  unbound : ∀ key, scopes.get id key = .error ⟨key⟩ ↔
    ∀ other ∈ id :: around, scopes.ownValue? other key = none
  /-- Any other key has the value of the first scope on the way that binds it. -/
  nearest : ∀ key inner other outer value, id :: around = inner ++ other :: outer →
    (∀ i ∈ inner, scopes.ownValue? i key = none) → scopes.ownValue? other key = some value →
    scopes.get id key = .ok value
  /-- A key is bound exactly if it can be read. -/
  contains : ∀ key, scopes.contains id key = true ↔ ∀ e, scopes.get id key ≠ .error e
  /-- The default is for keys that cannot be read, and not for those that hold null. -/
  getD : ∀ key default, scopes.getD id key default =
    match scopes.get id key with
    | .ok value => value
    | .error _ => default

/-- The first of a list of scopes that binds a key gives its value. -/
theorem findSome?_split {key : String} {inner outer : List ScopeId} {other : ScopeId} {value : Json}
    (hinner : ∀ i ∈ inner, scopes.ownValue? i key = none)
    (hvalue : scopes.ownValue? other key = some value) :
    (inner ++ other :: outer).findSome? (scopes.ownValue? · key) = some value := by
  rw [List.findSome?_append, List.findSome?_eq_none_iff.2 hinner, Option.none_or,
    List.findSome?_cons, hvalue]

theorem IsLineage.readsNearest {id : ScopeId} {around : List ScopeId}
    (h : scopes.IsLineage (id :: around)) : scopes.ReadsNearest id around := by
  constructor
  case lineage => exact h
  case acyclic => exact h.nodup
  case walk =>
    intro key result
    have hends := h.finds key
    rw [← h.get?_eq] at hends
    exact ⟨fun hfinds => hfinds.unique hends, fun heq => heq ▸ hends⟩
  case unbound =>
    intro key
    rw [← List.findSome?_eq_none_iff (p := (scopes.ownValue? · key)), ← h.get?_eq, get]
    cases scopes.get? id key <;> simp
  case nearest =>
    intro key inner other outer value hsplit hinner hvalue
    rw [get, h.get?_eq, hsplit, findSome?_split hinner hvalue]
  case contains =>
    intro key
    unfold Scopes.contains get
    cases scopes.get? id key <;> simp
  case getD =>
    intro key default
    unfold Scopes.getD get
    cases scopes.get? id key <;> rfl

/-! ## Writing -/

/-- The walk from a scope for a key comes to a scope before it comes to another that binds the
    key. -/
def Sees (scopes : Scopes) (id written : ScopeId) (key : String) : Prop :=
  ∃ around inner outer, scopes.IsLineage (id :: around) ∧ id :: around = inner ++ written :: outer ∧
    ∀ i ∈ inner, scopes.ownValue? i key = none

/-- What a write changes. -/
structure WritesNearest (scopes : Scopes) (written : ScopeId) (key : String) (value : Json) :
    Prop where
  /-- The scopes around a scope stay. -/
  lineage : ∀ ids, (scopes.insert written key value).IsLineage ids ↔ scopes.IsLineage ids
  /-- All scopes that see the written one give the value. -/
  seen : ∀ id default, scopes.Sees id written key →
    (scopes.insert written key value).readings id key default = (.ok value, true, value)
  /-- Nothing else that is read changes. -/
  kept : ∀ id < scopes.size, ∀ other default, ¬(other = key ∧ scopes.Sees id written key) →
    (scopes.insert written key value).readings id other default = scopes.readings id other default

theorem isLineage_insert_iff (written : ScopeId) (key : String) (value : Json)
    (ids : List ScopeId) :
    (scopes.insert written key value).IsLineage ids ↔ scopes.IsLineage ids := by
  have hback : (scopes.insert written key value).Keeps scopes := by
    intro id scope hscope
    rw [scope?_insert, Option.map_eq_some_iff] at hscope
    obtain ⟨before, hbefore, rfl⟩ := hscope
    refine ⟨before, hbefore, ?_⟩
    by_cases hid : id = written <;> simp [hid]
  exact ⟨fun h => h.keeps hback, fun h => h.keeps (keeps_insert scopes written key value)⟩

/-- A scope that sees the written one gives what was written. -/
theorem get?_insert_of_sees {written id : ScopeId} (hwritten : written < scopes.size)
    {key : String} (h : scopes.Sees id written key) (value : Json) :
    (scopes.insert written key value).get? id key = some value := by
  obtain ⟨around, inner, outer, hlineage, hsplit, hinner⟩ := h
  have hlater := (isLineage_insert_iff written key value _).2 hlineage
  have hnodup := hlineage.nodup
  rw [hsplit, List.nodup_append] at hnodup
  rw [hlater.get?_eq, hsplit]
  refine findSome?_split ?_ ?_
  · intro i hi
    have hne : written ≠ i := fun heq => hnodup.2.2 i hi written (List.mem_cons_self ..) heq.symm
    rw [ownValue?_insert hwritten, if_neg (fun h => hne h.1), hinner i hi]
  · rw [ownValue?_insert hwritten, if_pos ⟨rfl, rfl⟩]

/-- A scope that does not see the written one gives what it gave, and so does every scope for other
    keys. -/
theorem get?_insert_of_not_sees {written id : ScopeId} (hwritten : written < scopes.size)
    {around : List ScopeId} (hlineage : scopes.IsLineage (id :: around)) {key other : String}
    (h : ¬(other = key ∧ scopes.Sees id written key)) (value : Json) :
    (scopes.insert written key value).get? id other = scopes.get? id other := by
  have hlater := (isLineage_insert_iff written key value _).2 hlineage
  rw [hlater.get?_eq, hlineage.get?_eq]
  -- scopes other than the written one bind what they bound
  have hsame : ∀ ids : List ScopeId, (other = key → written ∉ ids) →
      ids.findSome? ((scopes.insert written key value).ownValue? · other) =
        ids.findSome? (scopes.ownValue? · other) := by
    intro ids hids
    refine findSome?_congr fun i hi => ?_
    rw [ownValue?_insert hwritten, if_neg]
    rintro ⟨rfl, rfl⟩
    exact hids rfl hi
  by_cases hmem : other = key ∧ written ∈ id :: around
  · obtain ⟨rfl, hmem⟩ := hmem
    obtain ⟨inner, outer, hsplit⟩ := List.append_of_mem hmem
    have hnodup := hlineage.nodup
    rw [hsplit, List.nodup_append] at hnodup
    have hnotMem : written ∉ inner := fun hi =>
      hnodup.2.2 written hi written (List.mem_cons_self ..) rfl
    -- a scope before the written one binds the key, and the walk ends there
    have hbound : inner.findSome? (scopes.ownValue? · other) ≠ none := by
      intro hnone
      exact h ⟨rfl, around, inner, outer, hlineage, hsplit, List.findSome?_eq_none_iff.1 hnone⟩
    rw [hsplit, List.findSome?_append, List.findSome?_append, hsame inner fun _ => hnotMem]
    cases hfound : inner.findSome? (scopes.ownValue? · other) with
    | none => exact absurd hfound hbound
    | some found => rfl
  · exact hsame _ fun heq hwrittenMem => hmem ⟨heq, hwrittenMem⟩

theorem WellNested.writesNearest (h : scopes.WellNested) {written : ScopeId}
    (hwritten : written < scopes.size) (key : String) (value : Json) :
    scopes.WritesNearest written key value := by
  constructor
  case lineage => exact isLineage_insert_iff written key value
  case seen =>
    intro id default hsees
    exact readings_of_get? (get?_insert_of_sees hwritten hsees value) default
  case kept =>
    intro id hid other default hnot
    obtain ⟨around, haround⟩ := h.exists_lineage hid
    exact readings_congr (get?_insert_of_not_sees hwritten haround hnot value) default

/-- **The readers agree in every state that is reached**: they all give the value of the nearest
    scope that binds the key, and a write shows in them exactly where it is the nearest. -/
theorem readers_agree_after (steps : List Step) :
    (∀ id < (after steps).size, ∃ around, (after steps).ReadsNearest id around) ∧
      ∀ written < (after steps).size, ∀ key value,
        (after steps).WritesNearest written key value := by
  have hnested := wellNested_after steps
  constructor
  · intro id hid
    obtain ⟨around, haround⟩ := hnested.exists_lineage hid
    exact ⟨around, haround.readsNearest⟩
  · intro written hwritten key value
    exact hnested.writesNearest hwritten key value

/-- Three scopes in one another, a name that is taken, and a null in place of a text. -/
def nestedSteps : List Step := [
  .create [("lang", .string "en"), ("page", .string "1")] none,
  .createNamed 0 [("lang", .bool false)],
  .createNamed 1 [("theme", .null), ("self", .null)],
  .create [] (some 1),
  .insert 0 "page" .null]

/-- The innermost scope reads a null as such, and a value that hides another. What is written to the
    outermost scope shows in it where nothing hides it. -/
theorem readers_agree_after_nested : 2 < (after nestedSteps).size ∧ 0 < (after nestedSteps).size ∧
    (after nestedSteps).IsLineage [2, 1, 0] ∧
    (after nestedSteps).get 2 "lang" = .ok (.bool false) ∧
    (after nestedSteps).get 2 "page" = .ok .null ∧
    (after nestedSteps).getD 2 "page" (.string "7") = .null ∧
    (after nestedSteps).get 2 "theme" = .error ⟨"theme"⟩ ∧
    ((after nestedSteps).insert 0 "page" (.string "2")).readings 2 "page" .null =
      (.ok (.string "2"), true, .string "2") := by
  have hinnermost : 2 < (after nestedSteps).size := by decide
  have houtermost : 0 < (after nestedSteps).size := by decide
  have hlineage : (after nestedSteps).IsLineage [2, 1, 0] :=
    .within rfl rfl (by decide) (.within rfl rfl (by decide) (.outermost rfl rfl))
  obtain ⟨hreads, hwrites⟩ := readers_agree_after nestedSteps
  obtain ⟨around, hreads⟩ := hreads 2 hinnermost
  obtain rfl : around = [1, 0] := hreads.lineage.unique hlineage
  have hfree : ∀ i ∈ [2, 1], (after nestedSteps).ownValue? i "page" = none :=
    List.forall_mem_cons.2 ⟨rfl, List.forall_mem_singleton.2 rfl⟩
  have hpage := hreads.nearest "page" [2, 1] 0 [] .null rfl hfree rfl
  refine ⟨hinnermost, houtermost, hlineage, ?_, hpage, ?_, ?_, ?_⟩
  · exact hreads.nearest "lang" [2] 1 [0] (.bool false) rfl (List.forall_mem_singleton.2 rfl) rfl
  · rw [hreads.getD, hpage]
  · refine (hreads.unbound "theme").2 ?_
    exact List.forall_mem_cons.2 ⟨rfl, List.forall_mem_cons.2 ⟨rfl, List.forall_mem_singleton.2 rfl⟩⟩
  · exact (hwrites 0 houtermost "page" (.string "2")).seen 2 .null
      ⟨[1, 0], [2, 1], [], hlineage, rfl, hfree⟩

end ApiScribe.Scopes

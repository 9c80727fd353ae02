import ApiScribe.Scope

set_option autoImplicit false

/-! # Lookups along the scopes around a scope

A lookup walks a chain of scopes that it finds on the way, from the parent that each of them names.
Where the scopes around a scope are known beforehand (`Scopes.IsLineage`), the walk is a search
through them: the nearest one that binds the key itself gives the value (`IsLineage.get?_eq`). What
a scope binds itself after a run of writes is what was written to it last, whatever was written to
others in between (`Scopes.ownValue?_run`). Neither making scopes nor writing to them changes which
scopes lie around one that is there (`Scopes.Keeps`). -/

namespace ApiScribe

/-- A search finds the same where all it looks at is the same. -/
theorem findSome?_congr {α β : Type} {l : List α} {f g : α → Option β}
    (h : ∀ a ∈ l, f a = g a) : l.findSome? f = l.findSome? g := by
  induction l with
  | nil => rfl
  | cons a l ih =>
    rw [List.findSome?_cons, List.findSome?_cons, h a (List.mem_cons_self ..),
      ih fun b hb => h b (List.mem_cons_of_mem _ hb)]

namespace Scopes

/-! ## Scopes by number -/

/-- The number of scopes, which the next scope gets as its own. -/
def size (scopes : Scopes) : Nat := scopes.newestFirst.length

/-- The scope of a number. -/
def scope? (scopes : Scopes) (id : ScopeId) : Option Scope := scopes.newestFirst.reverse[id]?

/-- The value that a scope binds to a key itself. -/
def ownValue? (scopes : Scopes) (id : ScopeId) (key : String) : Option Json :=
  (scopes.scope? id).bind (·.values.get? key)

theorem lt_size_of_scope? {scopes : Scopes} {id : ScopeId} {scope : Scope}
    (h : scopes.scope? id = some scope) : id < scopes.size := by
  simpa [size] using (List.getElem?_eq_some_iff.1 h).1

theorem scope?_eq_none {scopes : Scopes} {id : ScopeId} (h : scopes.scope? id = none) :
    scopes.size ≤ id := by
  simpa [scope?, size] using h

theorem size_insert (scopes : Scopes) (id : ScopeId) (key : String) (value : Json) :
    (scopes.insert id key value).size = scopes.size := by
  unfold insert size
  split
  · exact List.length_modify ..
  · rfl

theorem scope?_create_self (scopes : Scopes) (values : Table String Json)
    (parent : Option ScopeId) :
    (scopes.create values parent).2.scope? scopes.size = some ⟨values, parent⟩ := by
  simp [create, scope?, size]

theorem scope?_create_of_lt {scopes : Scopes} {id : ScopeId} (h : id < scopes.size)
    (values : Table String Json) (parent : Option ScopeId) :
    (scopes.create values parent).2.scope? id = scopes.scope? id := by
  have h : id < scopes.newestFirst.reverse.length := by simpa [size] using h
  simp only [create, scope?, List.reverse_cons]
  exact List.getElem?_append_left h

/-- A write changes the values of one scope, where that scope binds the key itself. -/
theorem scope?_insert (scopes : Scopes) (id : ScopeId) (key : String) (value : Json)
    (other : ScopeId) :
    (scopes.insert id key value).scope? other = (scopes.scope? other).map fun scope =>
      if other = id then { scope with values := scope.values.insert key value } else scope := by
  unfold insert
  split
  · next hid =>
    by_cases hother : other < scopes.newestFirst.length
    · -- counted from the newest, two scopes have one place exactly if they have one number
      have hplace : ∀ {i j n : Nat}, i < n → j < n → (n - 1 - i = n - 1 - j ↔ j = i) := by omega
      simp only [scope?]
      rw [List.getElem?_reverse (by simpa using hother), List.getElem?_reverse hother,
        List.length_modify, List.getElem?_modify]
      simp only [hplace hid hother, Option.map_eq_map]
    · simp [scope?, hother]
  · next hid =>
    cases hscope : scopes.scope? other with
    | none => rfl
    | some scope =>
      have hne : other ≠ id := fun heq => hid (heq ▸ lt_size_of_scope? hscope)
      simp [hne]

/-! ## The scopes around a scope -/

/-- A scope and all scopes around it, from the inside out: each names the next as its parent, which
    is older, and the last has none. -/
inductive IsLineage (scopes : Scopes) : List ScopeId → Prop
  | outermost {id : ScopeId} {scope : Scope} (hscope : scopes.scope? id = some scope)
      (hparent : scope.parent = none) : IsLineage scopes [id]
  | within {id parent : ScopeId} {around : List ScopeId} {scope : Scope}
      (hscope : scopes.scope? id = some scope) (hparent : scope.parent = some parent)
      (holder : parent < id) (haround : IsLineage scopes (parent :: around)) :
      IsLineage scopes (id :: parent :: around)

theorem IsLineage.exists_scope? {scopes : Scopes} {id : ScopeId} {around : List ScopeId}
    (h : scopes.IsLineage (id :: around)) :
    ∃ scope, scopes.scope? id = some scope ∧ scope.parent = around.head? := by
  cases h with
  | outermost hscope hparent => exact ⟨_, hscope, hparent⟩
  | within hscope hparent => exact ⟨_, hscope, hparent⟩

/-- The chain of a scope is the scope and the chain of its parent, if that is older. -/
theorem chain_eq_cons {scopes : Scopes} {id : ScopeId} {scope : Scope}
    (hscope : scopes.scope? id = some scope)
    (holder : ∀ parent, scope.parent = some parent → parent < id) :
    scopes.chain id = scope :: (match scope.parent with
      | some parent => scopes.chain parent
      | none => []) := by
  obtain ⟨newestFirst⟩ := scopes
  induction newestFirst with
  | nil => simp [scope?] at hscope
  | cons newest rest ih =>
    have hid : id ≤ rest.length := Nat.le_of_lt_succ (lt_size_of_scope? hscope)
    -- the newest scope is made with its values and its parent, and lies in no other chain
    have hother : ∀ other, other < rest.length →
        chain ⟨newest :: rest⟩ other = chain ⟨rest⟩ other := fun other hlt =>
      chain_create_of_ne ⟨rest⟩ newest.values newest.parent (Nat.ne_of_lt hlt)
    rcases Nat.lt_or_eq_of_le hid with hlt | rfl
    · have hscope : scope? ⟨rest⟩ id = some scope :=
        (scope?_create_of_lt hlt newest.values newest.parent).symm.trans hscope
      rw [hother id hlt, ih hscope]
      cases hparent : scope.parent with
      | none => rfl
      | some parent =>
        exact congrArg _ (hother parent (Nat.lt_trans (holder parent hparent) hlt)).symm
    · obtain rfl : newest = scope :=
        Option.some.inj ((scope?_create_self ⟨rest⟩ newest.values newest.parent).symm.trans hscope)
      obtain ⟨values, parent⟩ := newest
      have hchain := chain_create_self ⟨rest⟩ values parent
      cases parent with
      | none => exact hchain
      | some parent => exact hchain.trans (congrArg _ (hother parent (holder parent rfl)).symm)

/-- The chain of a scope consists of the scope and those around it. -/
theorem IsLineage.map_chain {scopes : Scopes} {id : ScopeId} {around : List ScopeId}
    (h : scopes.IsLineage (id :: around)) :
    (scopes.chain id).map some = (id :: around).map scopes.scope? := by
  induction around generalizing id with
  | nil =>
    cases h with
    | outermost hscope hparent =>
      have hchain := chain_eq_cons hscope (by simp [hparent])
      rw [hparent] at hchain
      simp [hchain, hscope]
  | cons parent around ih =>
    cases h with
    | within hscope hparent holder haround =>
      have hchain := chain_eq_cons hscope fun p hp => by
        obtain rfl := Option.some.inj (hparent.symm.trans hp)
        exact holder
      rw [hparent] at hchain
      rw [hchain, List.map_cons, ih haround, ← hscope]
      rfl

theorem IsLineage.depth_eq {scopes : Scopes} {id : ScopeId} {around : List ScopeId}
    (h : scopes.IsLineage (id :: around)) : scopes.depth id = around.length := by
  have hlength := congrArg List.length h.map_chain
  rw [List.length_map, List.length_map] at hlength
  rw [depth, hlength, List.length_cons, Nat.add_sub_cancel]

theorem IsLineage.parent?_eq {scopes : Scopes} {id : ScopeId} {around : List ScopeId}
    (h : scopes.IsLineage (id :: around)) : scopes.parent? id = around.head? := by
  obtain ⟨scope, hscope, hparent⟩ := h.exists_scope?
  have hhead := congrArg List.head? h.map_chain
  rw [List.head?_map, List.map_cons, List.head?_cons, hscope, Option.map_eq_some_iff] at hhead
  obtain ⟨first, hfirst, heq⟩ := hhead
  rw [parent?, hfirst, Option.bind_some, Option.some.inj heq, hparent]

/-- **A lookup is a search through the scopes around**, the nearest first. -/
theorem IsLineage.get?_eq {scopes : Scopes} {id : ScopeId} {around : List ScopeId}
    (h : scopes.IsLineage (id :: around)) (key : String) :
    scopes.get? id key = (id :: around).findSome? (scopes.ownValue? · key) := by
  have hsearch := congrArg
    (List.findSome? fun scope? : Option Scope => scope?.bind (·.values.get? key)) h.map_chain
  rw [List.findSome?_map, List.findSome?_map] at hsearch
  exact hsearch

/-! ## What stays -/

/-- The scopes that were there are there later, each inside the same scope as before. -/
def Keeps (scopes later : Scopes) : Prop :=
  ∀ id scope, scopes.scope? id = some scope →
    ∃ scope', later.scope? id = some scope' ∧ scope'.parent = scope.parent

theorem IsLineage.keeps {scopes later : Scopes} (hkeeps : scopes.Keeps later)
    {ids : List ScopeId} (h : scopes.IsLineage ids) : later.IsLineage ids := by
  induction h with
  | outermost hscope hparent =>
    obtain ⟨scope, hscope, heq⟩ := hkeeps _ _ hscope
    exact .outermost hscope (heq.trans hparent)
  | within hscope hparent holder _ ih =>
    obtain ⟨scope, hscope, heq⟩ := hkeeps _ _ hscope
    exact .within hscope (heq.trans hparent) holder ih

theorem keeps_insert (scopes : Scopes) (id : ScopeId) (key : String) (value : Json) :
    scopes.Keeps (scopes.insert id key value) := by
  intro other scope hscope
  rw [scope?_insert, hscope]
  refine ⟨_, rfl, ?_⟩
  dsimp only
  split <;> rfl

/-! ## Runs of writes -/

/-- A value that is bound to a key in a scope itself. -/
structure Write where
  scope : ScopeId
  key : String
  value : Json

/-- The scopes after writes, one after the other. -/
def run (scopes : Scopes) (writes : List Write) : Scopes :=
  writes.foldl (fun scopes write => scopes.insert write.scope write.key write.value) scopes

/-- The value that was last written to a key of a scope. -/
def lastWritten (writes : List Write) (key : String) (id : ScopeId) : Option Json :=
  (writes.filter fun write => write.scope = id ∧ write.key = key).getLast?.map Write.value

theorem keeps_run (scopes : Scopes) (writes : List Write) : scopes.Keeps (scopes.run writes) := by
  induction writes generalizing scopes with
  | nil => exact fun _ scope hscope => ⟨scope, hscope, rfl⟩
  | cons write writes ih =>
    intro id scope hscope
    obtain ⟨scope', hscope', heq⟩ :=
      keeps_insert scopes write.scope write.key write.value _ _ hscope
    obtain ⟨scope'', hscope'', heq'⟩ := ih _ _ _ hscope'
    exact ⟨scope'', hscope'', heq'.trans heq⟩

/-- One write: the scope binds the key to the value, and nothing else changes. -/
theorem ownValue?_insert {scopes : Scopes} {id : ScopeId} (hid : id < scopes.size)
    (key : String) (value : Json) (other : ScopeId) (otherKey : String) :
    (scopes.insert id key value).ownValue? other otherKey =
      if id = other ∧ key = otherKey then some value else scopes.ownValue? other otherKey := by
  unfold ownValue?
  rw [scope?_insert]
  cases hscope : scopes.scope? other with
  | none =>
    have hne : id ≠ other := Nat.ne_of_lt (Nat.lt_of_lt_of_le hid (scope?_eq_none hscope))
    simp [hne]
  | some scope =>
    by_cases hother : other = id
    · subst hother
      by_cases hkey : key = otherKey
      · subst hkey
        simp [Table.get?_insert_self]
      · simp [hkey, Table.get?_insert_of_ne (Ne.symm hkey)]
    · simp [hother, Ne.symm hother]

theorem lastWritten_cons (write : Write) (writes : List Write) (key : String) (id : ScopeId) :
    lastWritten (write :: writes) key id = (lastWritten writes key id).or
      (if write.scope = id ∧ write.key = key then some write.value else none) := by
  unfold lastWritten
  by_cases h : write.scope = id ∧ write.key = key
  · rw [List.filter_cons_of_pos (by simpa using h), List.getLast?_cons, if_pos h]
    cases (writes.filter fun write => write.scope = id ∧ write.key = key).getLast? <;> rfl
  · rw [List.filter_cons_of_neg (by simpa using h), if_neg h, Option.or_none]

/-- **A run of writes** leaves in a scope what was written to it last, and what it bound before to
    the keys that nothing was written to. -/
theorem ownValue?_run {scopes : Scopes} {writes : List Write}
    (h : ∀ write ∈ writes, write.scope < scopes.size) (id : ScopeId) (key : String) :
    (scopes.run writes).ownValue? id key =
      (lastWritten writes key id).or (scopes.ownValue? id key) := by
  induction writes generalizing scopes with
  | nil => rfl
  | cons write writes ih =>
    let next := scopes.insert write.scope write.key write.value
    have hnext : ∀ later ∈ writes, later.scope < next.size := by
      intro later hlater
      rw [size_insert]
      exact h later (List.mem_cons_of_mem _ hlater)
    have hfirst : next.ownValue? id key = _ :=
      ownValue?_insert (h write (List.mem_cons_self ..)) write.key write.value id key
    show (next.run writes).ownValue? id key = _
    rw [ih hnext, hfirst, lastWritten_cons]
    cases lastWritten writes key id with
    | some value => rfl
    | none =>
      split <;> rfl

end Scopes

end ApiScribe

set_option autoImplicit false

/-! # Tables: keyed entries in order of first insertion

Fields of an endpoint, children of a group, members of a JSON object and bindings of a scope are
all keyed entries whose order is visible in some answer. A `Table` keeps them as a list of pairs.
Inserting under a key that is present replaces the value and leaves the key where it stands, and a
new key goes to the end. So the keys of a table built by
insertions are pairwise distinct (`Table.distinct_ofList`) and stand in the order in which they
first occurred, and each holds the value last inserted under it. -/

namespace ApiScribe

/-- Keyed entries, in the order in which the keys were first inserted. -/
abbrev Table (κ α : Type) := List (κ × α)

namespace Table

variable {κ α : Type} [DecidableEq κ]

/-- The keys of a table, in order. -/
def keys (table : Table κ α) : List κ := table.map Prod.fst

/-- No key occurs twice. -/
def Distinct (table : Table κ α) : Prop := table.keys.Nodup

/-- The value under `key`, if there is one. -/
def get? : Table κ α → κ → Option α
  | [], _ => none
  | (k, v) :: rest, key => if k = key then some v else get? rest key

/-- Whether some entry stands under `key`. -/
def contains (table : Table κ α) (key : κ) : Bool := (table.get? key).isSome

/-- Puts `value` under `key`: in place when the key is present, else at the end. -/
def insert (key : κ) (value : α) : Table κ α → Table κ α
  | [] => [(key, value)]
  | (k, v) :: rest => if k = key then (key, value) :: rest else (k, v) :: insert key value rest

/-- The table of a list of pairs: the last value of a key wins, at the place of its first. -/
def ofList (pairs : List (κ × α)) : Table κ α :=
  pairs.foldl (fun table pair => insert pair.1 pair.2 table) []

/-! ## Lookup and the keys -/

theorem mem_of_get? {table : Table κ α} {key : κ} {value : α} (h : table.get? key = some value) :
    (key, value) ∈ table := by
  induction table with
  | nil => simp [get?] at h
  | cons entry rest ih =>
    obtain ⟨k, v⟩ := entry
    by_cases hk : k = key
    · simp_all [get?]
    · simp only [get?, hk, ↓reduceIte] at h
      exact List.mem_cons_of_mem _ (ih h)

theorem get?_of_mem {table : Table κ α} (h : table.Distinct) {key : κ} {value : α}
    (hmem : (key, value) ∈ table) : table.get? key = some value := by
  induction table with
  | nil => cases hmem
  | cons entry rest ih =>
    obtain ⟨hnew, hrest⟩ := List.nodup_cons.1 h
    rcases List.mem_cons.1 hmem with rfl | hmem
    · simp [get?]
    · have hne : entry.1 ≠ key := fun heq => hnew (heq ▸ List.mem_map_of_mem hmem)
      simp only [get?, hne, ↓reduceIte]
      exact ih hrest hmem

/-! ## What insertion does to lookup and to the keys -/

theorem get?_insert_self (key : κ) (value : α) (table : Table κ α) :
    (insert key value table).get? key = some value := by
  induction table with
  | nil => simp [insert, get?]
  | cons entry rest ih => by_cases h : entry.1 = key <;> simp [insert, get?, h, ih]

theorem get?_insert_of_ne {key other : κ} (h : other ≠ key) (value : α) (table : Table κ α) :
    (insert key value table).get? other = table.get? other := by
  induction table with
  | nil => simp [insert, get?, Ne.symm h]
  | cons entry rest ih =>
    by_cases hk : entry.1 = key
    · simp [insert, get?, hk, Ne.symm h]
    · simp [insert, get?, hk, ih]

theorem keys_insert (key : κ) (value : α) (table : Table κ α) :
    (insert key value table).keys = if key ∈ table.keys then table.keys else table.keys ++ [key] := by
  induction table with
  | nil => simp [insert, keys]
  | cons entry rest ih => by_cases h : entry.1 = key <;> grind [insert, keys]

theorem distinct_insert {table : Table κ α} (h : table.Distinct) (key : κ) (value : α) :
    (insert key value table).Distinct := by
  unfold Distinct at *
  rw [keys_insert]
  split
  · exact h
  · next hk => grind [List.nodup_append]

theorem distinct_ofList (pairs : List (κ × α)) : (ofList pairs).Distinct := by
  suffices ∀ table : Table κ α, table.Distinct →
      (pairs.foldl (fun table pair => insert pair.1 pair.2 table) table).Distinct from
    this [] (by simp [Distinct, keys])
  induction pairs with
  | nil => exact fun _ h => h
  | cons pair rest ih => exact fun table h => ih _ (distinct_insert h pair.1 pair.2)

/-! ## The place of a key -/

/-- Before and behind the first entry under a key. -/
theorem exists_append_of_get? {table : Table κ α} {key : κ} {value : α}
    (h : table.get? key = some value) :
    ∃ before after, table = before ++ (key, value) :: after ∧ key ∉ keys before := by
  induction table with
  | nil => simp [get?] at h
  | cons entry rest ih =>
    obtain ⟨k, v⟩ := entry
    by_cases hk : k = key
    · simp only [get?, hk, ↓reduceIte, Option.some.injEq] at h
      exact ⟨[], rest, by rw [hk, h, List.nil_append], by simp [keys]⟩
    · simp only [get?, hk, ↓reduceIte] at h
      obtain ⟨before, after, rfl, hbefore⟩ := ih h
      refine ⟨(k, v) :: before, after, rfl, ?_⟩
      simpa [keys, Ne.symm hk] using hbefore

theorem get?_append_cons {before : Table κ α} {key : κ} (h : key ∉ before.keys) (value : α)
    (after : Table κ α) : get? (before ++ (key, value) :: after) key = some value := by
  induction before with
  | nil => simp [get?]
  | cons entry rest ih =>
    obtain ⟨hne, hrest⟩ := not_or.1 (mt List.mem_cons.2 h)
    simpa [get?, Ne.symm hne] using ih hrest

/-- A value that is replaced leaves the entries on both sides alone. -/
theorem insert_append_cons {before : Table κ α} {key : κ} (h : key ∉ before.keys) (old value : α)
    (after : Table κ α) :
    insert key value (before ++ (key, old) :: after) = before ++ (key, value) :: after := by
  induction before with
  | nil => simp [insert]
  | cons entry rest ih =>
    obtain ⟨hne, hrest⟩ := not_or.1 (mt List.mem_cons.2 h)
    simpa [insert, Ne.symm hne] using ih hrest

/-- A new key goes to the end. -/
theorem insert_of_notMem {table : Table κ α} {key : κ} (h : key ∉ table.keys) (value : α) :
    insert key value table = table ++ [(key, value)] := by
  induction table with
  | nil => rfl
  | cons entry rest ih =>
    obtain ⟨hne, hrest⟩ := not_or.1 (mt List.mem_cons.2 h)
    simpa [insert, Ne.symm hne] using ih hrest

end Table

end ApiScribe

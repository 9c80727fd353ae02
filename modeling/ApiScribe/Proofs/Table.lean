import Mathlib.Data.List.Basic
import Mathlib.Data.List.Induction
import ApiScribe.Table

set_option autoImplicit false

/-! # What a run of insertions leaves

Whether an insertion makes a new entry or replaces a value depends on all insertions before it. What
is left at the end can be said without the run: the keys stand in the order in which they first
occurred (`Table.keys_ofList`), and each holds the value it was given last (`Table.get?_ofList`). So
the table is a list of the last pairs (`Table.ofList_eq_lastPairs`), and inserting only those, once
each, gives it again (`Table.ofList_lastPairs`). -/

namespace ApiScribe.Table

variable {κ α : Type} [DecidableEq κ]

/-- The value that pairs give a key last. -/
def lastOf (pairs : List (κ × α)) (key : κ) : Option α :=
  (pairs.filter fun pair => pair.1 = key).getLast?.map Prod.snd

/-- The last pair of every key, in the order in which the keys first occur. -/
def lastPairs (pairs : List (κ × α)) : List (κ × α) :=
  (pairs.map Prod.fst).eraseDups.filterMap fun key => (lastOf pairs key).map fun value => (key, value)

theorem lastOf_concat (pairs : List (κ × α)) (pair : κ × α) (key : κ) :
    lastOf (pairs ++ [pair]) key = if pair.1 = key then some pair.2 else lastOf pairs key := by
  unfold lastOf
  by_cases h : pair.1 = key <;> simp [h]

theorem ofList_concat (pairs : List (κ × α)) (pair : κ × α) :
    ofList (pairs ++ [pair]) = insert pair.1 pair.2 (ofList pairs) := by
  simp [ofList]

/-- **The keys stand in the order of their first insertion**, each once. -/
theorem keys_ofList (pairs : List (κ × α)) :
    (ofList pairs).keys = (pairs.map Prod.fst).eraseDups := by
  induction pairs using List.reverseRecOn with
  | nil => rfl
  | append_singleton pairs pair ih =>
    rw [ofList_concat, keys_insert, ih, List.map_append, List.map_singleton, List.eraseDups_append]
    by_cases h : pair.1 ∈ pairs.map Prod.fst
    · rw [if_pos (List.mem_eraseDups.2 h)]
      simp [List.removeAll, h]
    · rw [if_neg (mt List.mem_eraseDups.1 h)]
      simp [List.removeAll, h, List.eraseDups_cons]

/-- **A key holds the value that was inserted last.** -/
theorem get?_ofList (pairs : List (κ × α)) (key : κ) :
    (ofList pairs).get? key = lastOf pairs key := by
  induction pairs using List.reverseRecOn with
  | nil => rfl
  | append_singleton pairs pair ih =>
    rw [ofList_concat, lastOf_concat]
    by_cases h : pair.1 = key
    · rw [if_pos h, ← h]
      exact get?_insert_self ..
    · rw [if_neg h, get?_insert_of_ne (Ne.symm h), ih]

/-- Nothing is left that was not inserted. -/
theorem mem_of_mem_ofList {pairs : List (κ × α)} {entry : κ × α} (h : entry ∈ ofList pairs) :
    entry ∈ pairs := by
  have hlast : lastOf pairs entry.1 = some entry.2 := by
    rw [← get?_ofList]
    exact get?_of_mem (distinct_ofList pairs) h
  obtain ⟨pair, hpair, hvalue⟩ := Option.map_eq_some_iff.1 hlast
  obtain ⟨hmem, hkey⟩ := List.mem_filter.1 (List.mem_of_getLast? hpair)
  obtain rfl : pair = entry := Prod.ext (of_decide_eq_true hkey) hvalue
  exact hmem

/-- A table is the list of its keys with what they hold. -/
theorem eq_filterMap_keys {table : Table κ α} (h : table.Distinct) :
    table = table.keys.filterMap fun key => (table.get? key).map fun value => (key, value) := by
  have hentries : table.keys.filterMap (fun key => (table.get? key).map fun value => (key, value)) =
      table.filterMap some := by
    unfold keys
    rw [List.filterMap_map]
    refine List.filterMap_congr fun entry hentry => ?_
    rw [Function.comp_apply, get?_of_mem h hentry]
    rfl
  rw [hentries, List.filterMap_some]

/-- The keys of the entries whose values have a property, in order. -/
theorem map_fst_filter {table : Table κ α} (h : table.Distinct) (p : α → Bool) :
    (table.filter fun entry => p entry.2).map Prod.fst =
      table.keys.filter fun key => (table.get? key).any p := by
  unfold keys
  rw [List.filter_map]
  congr 1
  refine List.filter_congr fun entry hentry => ?_
  rw [Function.comp_apply, get?_of_mem h hentry]
  rfl

/-- The table of a list of pairs consists of the last pairs. -/
theorem ofList_eq_lastPairs (pairs : List (κ × α)) : ofList pairs = lastPairs pairs := by
  rw [eq_filterMap_keys (distinct_ofList pairs), keys_ofList, lastPairs]
  simp only [get?_ofList]

theorem distinct_lastPairs (pairs : List (κ × α)) : Distinct (lastPairs pairs) :=
  ofList_eq_lastPairs pairs ▸ distinct_ofList pairs

/-- Inserting the entries of a table in their order gives the table. -/
theorem ofList_of_distinct {table : Table κ α} (h : table.Distinct) : ofList table = table := by
  induction table using List.reverseRecOn with
  | nil => rfl
  | append_singleton table entry ih =>
    have hkeys : (keys table ++ [entry.1]).Nodup := by simpa [Distinct, keys] using h
    rw [List.nodup_append] at hkeys
    obtain ⟨htable, -, hnew⟩ := hkeys
    rw [ofList_concat, ih htable]
    exact insert_of_notMem (fun hmem => hnew _ hmem _ (List.mem_singleton_self _) rfl) entry.2

/-- Inserting only the last pairs, once each, gives the same table. -/
theorem ofList_lastPairs (pairs : List (κ × α)) : ofList (lastPairs pairs) = ofList pairs := by
  rw [ofList_of_distinct (distinct_lastPairs pairs), ofList_eq_lastPairs]

/-! ## Tables of other keys and values -/

theorem insert_map {κ' β : Type} [DecidableEq κ'] {f : κ → κ'} (hf : Function.Injective f)
    (g : α → β) (key : κ) (value : α) (table : Table κ α) :
    insert (f key) (g value) (table.map (Prod.map f g)) =
      (insert key value table).map (Prod.map f g) := by
  induction table with
  | nil => rfl
  | cons entry rest ih =>
    obtain ⟨k, v⟩ := entry
    by_cases h : k = key
    · simp [insert, h]
    · have hne : f k ≠ f key := fun heq => h (hf heq)
      simp only [List.map_cons, Prod.map_apply, insert, h, hne, ↓reduceIte, ih]

/-- Keys that are renamed apart stand in the same order and hold the values that go with them. -/
theorem ofList_map {κ' β : Type} [DecidableEq κ'] {f : κ → κ'} (hf : Function.Injective f)
    (g : α → β) (pairs : List (κ × α)) :
    ofList (pairs.map (Prod.map f g)) = (ofList pairs).map (Prod.map f g) := by
  induction pairs using List.reverseRecOn with
  | nil => rfl
  | append_singleton pairs pair ih =>
    rw [List.map_append, List.map_singleton, ofList_concat, ofList_concat, ih]
    exact insert_map hf g pair.1 pair.2 _

end ApiScribe.Table

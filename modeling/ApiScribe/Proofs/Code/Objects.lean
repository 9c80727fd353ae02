import ApiScribe.Code.Render
import ApiScribe.Proofs.Json.Grammar
import ApiScribe.Proofs.Table
import ApiScribe.Proofs.Text.Literal

set_option autoImplicit false

/-! # Object literals as JSON texts

An object literal quotes its keys and takes its values as they are written, so it is as good a text
as its values are. Where these are quoted texts or object literals in turn, down to any depth, the
literal is a JSON text (`ObjectTree.valueAt`), and what it stands for is the tree that it was
written from, with each key once in every object (`ObjectTree.read_render`). -/

namespace ApiScribe.Code

open Json (skipBlanks ValueAt MembersAt)

/-! ## Trees of objects -/

/-- Objects in one another, with texts at the leaves. An object may have a key more than once. -/
inductive ObjectTree where
  | text (text : String)
  | object (entries : List (String × ObjectTree))

mutual

/-- The tree as an object literal whose values are the literals of its subtrees. -/
def ObjectTree.render : ObjectTree → String
  | .text text => Text.quoted text
  | .object entries => objectLiteral (renderEntries entries)

/-- The entries, each with the literal of its subtree. -/
def renderEntries : List (String × ObjectTree) → List (String × String)
  | [] => []
  | (key, tree) :: rest => (key, tree.render) :: renderEntries rest

end

mutual

/-- The tree with each key once in every object: the last subtree of a key counts, at the place of
    its first. -/
def ObjectTree.resolve : ObjectTree → ObjectTree
  | .text text => .text text
  | .object entries => .object (Table.lastPairs (resolveEntries entries))

/-- The entries, each with its subtree resolved. -/
def resolveEntries : List (String × ObjectTree) → List (String × ObjectTree)
  | [] => []
  | (key, tree) :: rest => (key, tree.resolve) :: resolveEntries rest

end

mutual

/-- The tree as a JSON value. -/
def ObjectTree.toJson : ObjectTree → Json
  | .text text => .string text
  | .object entries => .object (toMembers entries)

/-- The entries as members. -/
def toMembers : List (String × ObjectTree) → List (LooseText × Json)
  | [] => []
  | (key, tree) :: rest => (.ofString key, tree.toJson) :: toMembers rest

end

theorem toMembers_eq_map (entries : List (String × ObjectTree)) :
    toMembers entries = entries.map (Prod.map LooseText.ofString ObjectTree.toJson) := by
  induction entries with
  | nil => rfl
  | cons entry rest ih => rw [toMembers, ih, List.map_cons, Prod.map]

/-- The reader resolves repeated keys as the tree does. -/
theorem ofList_toMembers (entries : List (String × ObjectTree)) :
    Table.ofList (toMembers entries) = toMembers (Table.lastPairs entries) := by
  have hinjective : Function.Injective LooseText.ofString := fun _ _ => LooseText.ofString_injective
  rw [toMembers_eq_map, toMembers_eq_map, Table.ofList_map hinjective, Table.ofList_eq_lastPairs]

/-! ## Reading the pieces -/

/-- The text behind a character that is no blank. -/
theorem skipBlanks_cons {c : Char} (hc : Json.isBlank c = false) (rest : List Char) :
    skipBlanks (c :: rest) = c :: rest :=
  List.dropWhile_cons_of_neg (by simp [hc])

theorem skipBlanks_space (rest : List Char) : skipBlanks (' ' :: rest) = skipBlanks rest :=
  List.dropWhile_cons_of_pos rfl

/-- A literal starts with a quote or a brace. -/
theorem ObjectTree.skipBlanks_render (tree : ObjectTree) (rest : List Char) :
    skipBlanks (tree.render.toList ++ rest) = tree.render.toList ++ rest := by
  cases tree with
  | text text =>
    rw [render, Text.toList_quoted]
    exact skipBlanks_cons rfl _
  | object entries =>
    simp only [render, objectLiteral, String.toList_append, String.reduceToList, List.append_assoc,
      List.cons_append, List.nil_append]
    exact skipBlanks_cons rfl _

/-- A key in quotes is read as it was, and what follows it is left. -/
theorem readText_key (key : String) (rest : List Char) :
    Json.readText ('"' :: (key.toList.flatMap Text.quotedChar ++ '"' :: rest)) 0 []
      (key.toList.flatMap Text.quotedChar ++ '"' :: rest) = .ok (.ofString key, rest) :=
  Text.readText_flatMap_quotedChar _ [] key.toList rest

/-- An entry starts with the quote of its key. -/
theorem toList_objectEntry (key value : String) (rest : List Char) :
    (objectEntry (key, value)).toList ++ rest =
      '"' :: (key.toList.flatMap Text.quotedChar ++ '"' :: ':' :: ' ' :: (value.toList ++ rest)) := by
  simp [objectEntry, Text.toList_quoted]

/-- Members start with the quote of a key. -/
theorem skipBlanks_of_membersAt {text rest : List Char} {members : List (LooseText × Json)}
    (h : MembersAt text members rest) : skipBlanks text = text := by
  cases h <;> exact skipBlanks_cons rfl _

/-- An entry whose value stands in the text is the last member before a closing brace. -/
theorem membersAt_last {key text : String} {value : Json} {rest : List Char}
    (hblank : skipBlanks (text.toList ++ '\x7d' :: rest) = text.toList ++ '\x7d' :: rest)
    (hvalue : ValueAt (text.toList ++ '\x7d' :: rest) value ('\x7d' :: rest)) :
    MembersAt ((objectEntry (key, text)).toList ++ '\x7d' :: rest) [(.ofString key, value)] rest := by
  rw [toList_objectEntry]
  refine .last (readText_key key _) (skipBlanks_cons rfl _) ?_ (skipBlanks_cons rfl rest)
  rw [skipBlanks_space, hblank]
  exact hvalue

/-- An entry whose value stands in the text comes before the members behind the comma. -/
theorem membersAt_more {key text : String} {value : Json} {more rest : List Char}
    {members : List (LooseText × Json)}
    (hblank : skipBlanks (text.toList ++ ',' :: ' ' :: more) = text.toList ++ ',' :: ' ' :: more)
    (hvalue : ValueAt (text.toList ++ ',' :: ' ' :: more) value (',' :: ' ' :: more))
    (hmore : MembersAt more members rest) :
    MembersAt ((objectEntry (key, text)).toList ++ ',' :: ' ' :: more)
      ((.ofString key, value) :: members) rest := by
  have hcomma : skipBlanks (',' :: ' ' :: more) = ',' :: ' ' :: more := skipBlanks_cons rfl _
  have hvalue : ValueAt (skipBlanks (' ' :: (text.toList ++ ',' :: ' ' :: more))) value
      (',' :: ' ' :: more) := by
    rw [skipBlanks_space, hblank]
    exact hvalue
  have hmore : MembersAt (skipBlanks (' ' :: more)) members rest := by
    rw [skipBlanks_space, skipBlanks_of_membersAt hmore]
    exact hmore
  rw [toList_objectEntry]
  exact .more (readText_key key _) (skipBlanks_cons rfl _) hvalue hcomma hmore

/-! ## Reading trees -/

theorem toList_objectLiteral (entries : List (String × String)) (rest : List Char) :
    (objectLiteral entries).toList ++ rest =
      '\x7b' :: ((", ".intercalate (entries.map objectEntry)).toList ++ '\x7d' :: rest) := by
  simp [objectLiteral]

mutual

/-- At the start of a literal stands the value of its tree, whatever follows the literal. -/
theorem ObjectTree.valueAt : ∀ (tree : ObjectTree) (rest : List Char),
    ValueAt (tree.render.toList ++ rest) tree.resolve.toJson rest
  | .text text, rest => by
    rw [ObjectTree.render, ObjectTree.resolve, ObjectTree.toJson, Text.toList_quoted,
      List.cons_append, List.cons_append, List.append_assoc]
    exact .string (readText_key text rest)
  | .object entries, rest => by
    rw [ObjectTree.render, ObjectTree.resolve, ObjectTree.toJson, toList_objectLiteral]
    by_cases hempty : entries = []
    · subst hempty
      exact .emptyObject (skipBlanks_cons rfl rest)
    · have hmembers := membersAt_entries entries hempty rest
      rw [← skipBlanks_of_membersAt hmembers] at hmembers
      rw [← ofList_toMembers]
      exact .object hmembers

/-- The entries of an object are its members, up to the closing brace. -/
theorem membersAt_entries : ∀ (entries : List (String × ObjectTree)), entries ≠ [] →
    ∀ rest : List Char, MembersAt
      ((", ".intercalate ((renderEntries entries).map objectEntry)).toList ++ '\x7d' :: rest)
      (toMembers (resolveEntries entries)) rest
  | [], hne, _ => absurd rfl hne
  | [(key, tree)], _, rest => by
    have hentry : MembersAt ((objectEntry (key, tree.render)).toList ++ '\x7d' :: rest)
        [(.ofString key, tree.resolve.toJson)] rest :=
      membersAt_last (tree.skipBlanks_render _) (tree.valueAt _)
    simpa [renderEntries, resolveEntries, toMembers] using hentry
  | (key, tree) :: next :: more, _, rest => by
    have hmore := membersAt_entries (next :: more) (List.cons_ne_nil _ _) rest
    have hentry : MembersAt _ ((.ofString key, tree.resolve.toJson) :: _) rest :=
      membersAt_more (tree.skipBlanks_render _) (tree.valueAt _) hmore
    simpa [renderEntries, resolveEntries, toMembers, String.intercalate_cons_cons] using hentry

end

/-- **An object literal decodes to its entries**: it is read as a JSON text to its end, and its
    value is the tree, each key once in every object. -/
theorem ObjectTree.read_render (tree : ObjectTree) :
    Json.read tree.render = .ok tree.resolve.toJson := by
  have hvalue := tree.valueAt []
  rw [List.append_nil] at hvalue
  have hblank := tree.skipBlanks_render []
  rw [List.append_nil] at hblank
  rw [Json.read_eq_ok_iff, Json.readAll_eq_ok_iff]
  refine ⟨?_, [], by rwa [hblank], rfl⟩
  intro behind hmark
  cases tree with
  | text text => simp [render, Text.toList_quoted] at hmark
  | object entries => simp [render, objectLiteral] at hmark

-- a key that is repeated keeps its first place and its last subtree
example : (ObjectTree.object [("a", .text "1"), ("b", .object []), ("a", .text "2")]).resolve =
    .object [("a", .text "2"), ("b", .object [])] := rfl

end ApiScribe.Code

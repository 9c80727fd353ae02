import ApiScribe.Proofs.Code.Block
import Mathlib.Data.List.DropRight
import Mathlib.Data.List.Forall2

set_option autoImplicit false

/-! # The body of a class

The template of a class trims the newlines at the end of a member and hands the rest to a filter,
which puts one newline back, cuts the text into lines and joins them with newlines. The filter does
not treat all lines alike: it indents the first one in any case and the others unless they are empty
(`indented`). What comes out is nevertheless the block that has one line for each line of the member
(`memberBlock_eq_indented`), because a member starts with a word and ends with a brace and a newline.
So the lines of a member can be read off its block, whatever text its parts hold
(`ClassDecl.render_keepsLines`). -/

namespace ApiScribe.Code

open Text (splitLines splitLines_cons isLineBreak)

/-! ## Lines of a block -/

/-- What stands in front of a line of a class body. -/
def indentation : List Char := [' ', ' ', ' ', ' ']

/-- A line as it stands in a class body, without its newline. -/
def indentLine (line : List Char) : List Char := if line.isEmpty then [] else indentation ++ line

/-- A line without its leading spaces, of which four are removed at most. -/
def unindent (line : List Char) : List Char := line.drop (min 4 (line.takeWhile (· = ' ')).length)

theorem toList_bodyLine (line : List Char) : (bodyLine line).toList = indentLine line ++ ['\n'] := by
  unfold bodyLine indentLine
  split
  · rfl
  · simp [indentation]

theorem not_mem_indentLine {line : List Char} (h : ∀ c ∈ line, isLineBreak c = false) :
    '\n' ∉ indentLine line := by
  have hline : '\n' ∉ line := fun hmem => absurd (h _ hmem) (by decide)
  unfold indentLine
  split
  · simp
  · simp [indentation, hline]

theorem unindent_indentLine (line : List Char) : unindent (indentLine line) = line := by
  unfold indentLine
  split
  · next hempty =>
    rw [List.isEmpty_iff.1 hempty]
    rfl
  · -- the spaces that the line itself starts with come behind the four
    have hspaces : ((indentation ++ line).takeWhile (· = ' ')).length =
        4 + (line.takeWhile (· = ' ')).length := by
      rw [List.takeWhile_append_of_pos (by simp [indentation]), List.length_append]
      rfl
    rw [unindent, hspaces, Nat.min_eq_left (Nat.le_add_right ..)]
    rfl

/-- Lines without newlines are found again between the newlines that end them. -/
theorem splitOn_flatMap_newline {lines : List (List Char)} (h : ∀ line ∈ lines, '\n' ∉ line) :
    (lines.flatMap fun line => line ++ ['\n']).splitOn '\n' = lines ++ [[]] := by
  induction lines with
  | nil => rfl
  | cons line lines ih =>
    rw [List.flatMap_cons, List.append_assoc, List.singleton_append,
      List.splitOn_append_cons_self_of_not_mem (h line (List.mem_cons_self ..)),
      ih fun l hl => h l (List.mem_cons_of_mem _ hl), List.cons_append]

theorem toList_memberBlock (text : String) :
    (memberBlock text).toList =
      ((splitLines text.toList).map indentLine).flatMap fun line => line ++ ['\n'] := by
  rw [memberBlock, String.toList_join, List.flatMap_map, List.flatMap_map]
  exact congrArg (List.flatMap · _) (funext toList_bodyLine)

/-- **The lines of a block** are those of its member, each indented unless it is empty, and nothing
    stands behind the newline of the last one. -/
theorem splitOn_memberBlock (text : String) :
    (memberBlock text).toList.splitOn '\n' = (splitLines text.toList).map indentLine ++ [[]] := by
  rw [toList_memberBlock]
  refine splitOn_flatMap_newline fun line hline => ?_
  obtain ⟨original, horiginal, rfl⟩ := List.mem_map.1 hline
  exact not_mem_indentLine (Text.not_isLineBreak_of_mem_splitLines horiginal)

/-! ## How the template makes a block -/

/-- A text without the newlines at its end. -/
def trimNewlines (text : List Char) : List Char := text.rdropWhile (· = '\n')

/-- A text as the filter of the template indents it: a newline is put at its end, and its lines are
    joined with newlines. The first line is indented in any case, the others unless they are
    empty. -/
def indented (text : List Char) : List Char :=
  match splitLines (text ++ ['\n']) with
  -- a text with a newline has a line
  | [] => indentation
  | first :: rest => ['\n'].intercalate ((indentation ++ first) :: rest.map indentLine)

/-- A text with a newline after each line is one with newlines between the lines and one more. -/
theorem flatMap_newline_eq_intercalate (line : List Char) (lines : List (List Char)) :
    (line :: lines).flatMap (· ++ ['\n']) =
      ['\n'].intercalate (line :: lines) ++ ['\n'] := by
  induction lines generalizing line with
  | nil => simp
  | cons next lines ih =>
    rw [List.flatMap_cons, ih, List.intercalate_cons_cons, List.append_assoc, List.append_assoc,
      List.append_assoc]

/-- The first line of a text is not empty if the text starts with no break. -/
theorem exists_splitLines_eq_cons {c : Char} (hc : isLineBreak c = false) (rest : List Char) :
    ∃ first lines, splitLines (c :: rest) = (c :: first) :: lines := by
  rw [splitLines_cons hc]
  split
  · exact ⟨[], [], rfl⟩
  · exact ⟨_, _, rfl⟩

/-- The text starts with a character that ends no line, and ends with a brace and a newline. -/
structure IsMemberText (text : String) : Prop where
  start : ∃ c ∈ text.toList.head?, isLineBreak c = false
  stop : ∃ body, text.toList = body ++ ['\x7d', '\n']

theorem Method.isMemberText (method : Method) : IsMemberText method.render := by
  constructor
  · cases hpublic : method.isPublic
    · exact ⟨'a', by simp [render, visibility, hpublic], by decide⟩
    · exact ⟨'p', by simp [render, visibility, hpublic], by decide⟩
  · refine ⟨(method.opening ++ "\n    return axios(" ++ method.request ++ ");\n").toList, ?_⟩
    rw [Method.render_eq]
    simp

theorem Getter.isMemberText (getter : Getter) : IsMemberText getter.render := by
  constructor
  · cases hpublic : getter.isPublic
    · exact ⟨'g', by simp [render, visibility, hpublic], by decide⟩
    · exact ⟨'p', by simp [render, visibility, hpublic], by decide⟩
  · refine ⟨(getter.opening ++ "\n    return new " ++ getter.target ++ "();\n").toList, ?_⟩
    rw [Getter.render_eq]
    simp

/-- Trimming takes away the newline that the filter puts back. -/
theorem IsMemberText.trimNewlines_append {text : String} (h : IsMemberText text) :
    trimNewlines text.toList ++ ['\n'] = text.toList := by
  obtain ⟨body, hbody⟩ := h.stop
  have hbrace : body ++ ['\x7d', '\n'] = body ++ ['\x7d'] ++ ['\n'] := by simp
  rw [hbody, hbrace, trimNewlines, List.rdropWhile_concat_pos _ _ _ (by decide),
    List.rdropWhile_concat_neg _ _ _ (by decide)]

/-- **The block of a member** is what the template makes of it. -/
theorem memberBlock_eq_indented {text : String} (h : IsMemberText text) :
    (memberBlock text).toList = indented (trimNewlines text.toList) ++ ['\n'] := by
  obtain ⟨c, hhead, hc⟩ := h.start
  obtain ⟨rest, htext⟩ := List.head?_eq_some_iff.1 hhead
  obtain ⟨first, lines, hlines⟩ := exists_splitLines_eq_cons hc rest
  -- the first line is not empty, so it makes no difference that the filter does not ask
  have hfirst : indentLine (c :: first) = indentation ++ (c :: first) := rfl
  rw [toList_memberBlock, indented, h.trimNewlines_append, htext, hlines, List.map_cons,
    flatMap_newline_eq_intercalate, hfirst]

/-! ## The whole class -/

/-- The block is made from the member as the template has it. It has a line, ended by a newline, for
    each line of the member, and gives these lines back when the indentation is removed. -/
structure IsBlockOf (member block : String) : Prop where
  made : block.toList = indented (trimNewlines member.toList) ++ ['\n']
  lines : block.toList.splitOn '\n' = (splitLines member.toList).map indentLine ++ [[]]
  restored : (block.toList.splitOn '\n').dropLast.map unindent = splitLines member.toList

theorem IsMemberText.isBlockOf {text : String} (h : IsMemberText text) :
    IsBlockOf text (memberBlock text) where
  made := memberBlock_eq_indented h
  lines := splitOn_memberBlock text
  restored := by
    rw [splitOn_memberBlock, List.dropLast_concat, List.map_map]
    exact (List.map_congr_left fun line _ => unindent_indentLine line).trans (List.map_id _)

/-- **A class body keeps the lines of its members**: between the line that opens the class and the
    brace that closes it stand the blocks of the methods in order, and then those of the getters. -/
theorem ClassDecl.render_keepsLines (decl : ClassDecl) :
    ∃ methodBlocks getterBlocks : List String,
      decl.render = (if decl.exported then "export " else "") ++ "class " ++ decl.name ++ " \x7b\n" ++
        String.join methodBlocks ++ String.join getterBlocks ++ "\x7d\n" ∧
      List.Forall₂ (fun method block => IsBlockOf method.render block) decl.methods methodBlocks ∧
      List.Forall₂ (fun getter block => IsBlockOf getter.render block) decl.getters getterBlocks := by
  refine ⟨decl.methods.map fun method => memberBlock method.render,
    decl.getters.map fun getter => memberBlock getter.render, ?_, ?_, ?_⟩
  · rw [render, header, members, List.map_append, List.map_map, List.map_map, String.join_append]
    simp only [String.append_assoc, Function.comp_def]
  · exact List.forall₂_map_right_iff.2 (List.forall₂_same.2 fun method _ =>
      method.isMemberText.isBlockOf)
  · exact List.forall₂_map_right_iff.2 (List.forall₂_same.2 fun getter _ =>
      getter.isMemberText.isBlockOf)

-- CR LF is one break, the line between the breaks stays empty, and spaces of the member are kept
example : memberBlock (⟨"a\r\n\u2028  b", "C", true⟩ : Getter).render =
    "    public get a\n\n      b() \x7b\n        return new C();\n    \x7d\n" := by decide +kernel

end ApiScribe.Code

import ApiScribe.Code.Render
import ApiScribe.Proofs.Text.Identifier

set_option autoImplicit false

/-! # Members as they stand in a class body

The indentation of a class body knows nothing of members, it takes lines as they come. A member that
consists of the lines it was meant to have is indented as a whole (`memberBlock_method`,
`memberBlock_getter`). In any case a block has as many lines as its member has in all conventions
together (`count_newline_memberBlock`), which is more than it has newlines if a break of another
kind got into the text. -/

namespace ApiScribe.Code

open Text (OneLine IsIdentifier splitLines isLineBreak quoted)

/-! ## Line by line -/

@[simp]
theorem memberBlock_empty : memberBlock "" = "" := rfl

theorem memberBlock_line {line : String} (hne : line ≠ "") (hline : OneLine line)
    (rest : String) :
    memberBlock (line ++ "\n" ++ rest) = "    " ++ line ++ "\n" ++ memberBlock rest := by
  have hsplit : splitLines (line ++ "\n" ++ rest).toList =
      line.toList :: splitLines rest.toList := by
    have := Text.splitLines_append_newline hline rest.toList
    simpa using this
  have hbody : bodyLine line.toList = "    " ++ line ++ "\n" := by
    rw [bodyLine, if_neg (by simpa using hne), String.ofList_toList]
  rw [memberBlock, hsplit, List.map_cons, String.join_cons, hbody]
  rfl

/-! ## Methods and getters -/

/-- The object that a method passes on. -/
def Method.request (method : Method) : String := objectLiteral method.requestEntries

/-- The line that opens a method. -/
def Method.opening (method : Method) : String :=
  visibility method.isPublic ++ "async " ++ method.name
    ++ "(" ++ ", ".intercalate (method.arguments.map parameterText) ++ "): Promise<any> \x7b"

/-- The line that opens a getter. -/
def Getter.opening (getter : Getter) : String :=
  visibility getter.isPublic ++ "get " ++ getter.name ++ "() \x7b"

theorem Method.opening_ne_empty (method : Method) : method.opening ≠ "" := by
  simp [opening]

theorem Getter.opening_ne_empty (getter : Getter) : getter.opening ≠ "" := by
  simp [opening]

theorem Method.render_eq (method : Method) :
    method.render = method.opening ++ "\n" ++
      ("    return axios(" ++ method.request ++ ");" ++ "\n" ++ ("\x7d" ++ "\n" ++ "")) := by
  simp only [render, opening, request, String.append_assoc]
  rfl

theorem Getter.render_eq (getter : Getter) :
    getter.render = getter.opening ++ "\n" ++
      ("    return new " ++ getter.target ++ "();" ++ "\n" ++ ("\x7d" ++ "\n" ++ "")) := by
  simp only [render, opening, String.append_assoc]
  rfl

/-- **A method of three lines** stands in a class body as these lines, each indented. -/
theorem memberBlock_method {method : Method} (hopening : OneLine method.opening)
    (hrequest : OneLine method.request) :
    memberBlock method.render = "    " ++ method.opening ++ "\n        return axios(" ++
      method.request ++ ");\n    \x7d\n" := by
  have hcall : OneLine ("    return axios(" ++ method.request ++ ");") := by
    simp only [Text.oneLine_append]
    exact ⟨⟨by decide, hrequest⟩, by decide⟩
  rw [Method.render_eq, memberBlock_line method.opening_ne_empty hopening,
    memberBlock_line (by simp) hcall, memberBlock_line (by decide) (by decide)]
  simp only [memberBlock_empty, String.append_assoc]
  rfl

theorem memberBlock_getter {getter : Getter} (hopening : OneLine getter.opening)
    (htarget : OneLine getter.target) :
    memberBlock getter.render = "    " ++ getter.opening ++ "\n        return new " ++
      getter.target ++ "();\n    \x7d\n" := by
  have hreturn : OneLine ("    return new " ++ getter.target ++ "();") := by
    simp only [Text.oneLine_append]
    exact ⟨⟨by decide, htarget⟩, by decide⟩
  rw [Getter.render_eq, memberBlock_line getter.opening_ne_empty hopening,
    memberBlock_line (by simp) hreturn, memberBlock_line (by decide) (by decide)]
  simp only [memberBlock_empty, String.append_assoc]
  rfl

/-! ## What a method passes on -/

/-- The parts of a request that are left out when there is nothing to pass on. -/
def Method.clauses (method : Method) : String :=
  (if method.params.isEmpty then "" else ", \"params\": " ++ argumentObject method.params)
    ++ (if method.data.isEmpty then "" else ", \"data\": " ++ argumentObject method.data)

theorem Method.request_eq (method : Method) :
    method.request = "\x7b\"url\": " ++ quoted method.url ++ ", \"method\": " ++
      quoted method.verb ++ method.clauses ++ "\x7d" := by
  have hurl : quoted "url" = "\"url\"" := by decide
  have hverb : quoted "method" = "\"method\"" := by decide
  have hparams : quoted "params" = "\"params\"" := by decide
  have hdata : quoted "data" = "\"data\"" := by decide
  apply String.toList_inj.1
  cases hp : method.params.isEmpty <;> cases hd : method.data.isEmpty <;>
    simp [request, requestEntries, clauses, objectLiteral, objectEntry, hp, hd, hurl, hverb,
      hparams, hdata]

theorem oneLine_argumentObject {arguments : List Argument}
    (h : ∀ argument ∈ arguments, IsIdentifier argument.name) :
    OneLine (argumentObject arguments) := by
  have hentries : OneLine (", ".intercalate
      ((arguments.map fun argument => (argument.name, argument.name)).map objectEntry)) := by
    refine Text.oneLine_intercalate (by decide) fun text htext => ?_
    rw [List.map_map] at htext
    obtain ⟨argument, hmem, rfl⟩ := List.mem_map.1 htext
    have hname := h argument hmem
    simp only [Function.comp_apply, objectEntry, Text.oneLine_append]
    exact ⟨⟨hname.oneLine_quoted, by decide⟩, hname.oneLine⟩
  rw [argumentObject, objectLiteral, Text.oneLine_append, Text.oneLine_append]
  exact ⟨⟨by decide, hentries⟩, by decide⟩

theorem Method.oneLine_clauses {method : Method}
    (h : ∀ argument ∈ method.arguments, IsIdentifier argument.name) : OneLine method.clauses := by
  have hparams := oneLine_argumentObject fun a ha => h a (List.mem_append_left _ ha)
  have hdata := oneLine_argumentObject fun a ha => h a (List.mem_append_right _ ha)
  rw [clauses, Text.oneLine_append]
  constructor <;> split
  · decide
  · exact (Text.oneLine_append ..).2 ⟨by decide, hparams⟩
  · decide
  · exact (Text.oneLine_append ..).2 ⟨by decide, hdata⟩

/-- A request stays on one line if its address and its verb do. -/
theorem Method.oneLine_request {method : Method}
    (h : ∀ argument ∈ method.arguments, IsIdentifier argument.name)
    (hurl : OneLine (quoted method.url)) (hverb : OneLine (quoted method.verb)) :
    OneLine method.request := by
  simp only [request_eq, Text.oneLine_append]
  exact ⟨⟨⟨⟨⟨by decide, hurl⟩, by decide⟩, hverb⟩, oneLine_clauses h⟩, by decide⟩

theorem oneLine_visibility (isPublic : Bool) : OneLine (visibility isPublic) := by
  cases isPublic <;> decide

theorem Method.oneLine_opening {method : Method} (hname : IsIdentifier method.name)
    (h : ∀ argument ∈ method.arguments, IsIdentifier argument.name ∧ OneLine argument.type) :
    OneLine method.opening := by
  have harguments : OneLine (", ".intercalate (method.arguments.map parameterText)) := by
    refine Text.oneLine_intercalate (by decide) fun text htext => ?_
    obtain ⟨argument, hmem, rfl⟩ := List.mem_map.1 htext
    rw [parameterText, Text.oneLine_append, Text.oneLine_append]
    exact ⟨⟨(h argument hmem).1.oneLine, by decide⟩, (h argument hmem).2⟩
  simp only [opening, Text.oneLine_append]
  exact ⟨⟨⟨⟨⟨oneLine_visibility _, by decide⟩, hname.oneLine⟩, by decide⟩, harguments⟩, by decide⟩

theorem Getter.oneLine_opening {getter : Getter} (hname : IsIdentifier getter.name) :
    OneLine getter.opening := by
  simp only [opening, Text.oneLine_append]
  exact ⟨⟨⟨oneLine_visibility _, by decide⟩, hname.oneLine⟩, by decide⟩

/-! ## Counting lines -/

theorem count_newline_bodyLine {line : List Char} (h : ∀ c ∈ line, isLineBreak c = false) :
    (bodyLine line).toList.count '\n' = 1 := by
  have hline : '\n' ∉ line := fun hmem => absurd (h _ hmem) (by decide)
  unfold bodyLine
  split
  · decide
  · simp [List.count_append, List.count_eq_zero_of_not_mem hline]

/-- A block has one newline for each line of its member. -/
theorem count_newline_memberBlock (text : String) :
    (memberBlock text).toList.count '\n' = (splitLines text.toList).length := by
  have hcount : ∀ lines : List (List Char), (∀ line ∈ lines, ∀ c ∈ line, isLineBreak c = false) →
      (String.join (lines.map bodyLine)).toList.count '\n' = lines.length := by
    intro lines hlines
    induction lines with
    | nil => rfl
    | cons line lines ih =>
      rw [List.map_cons, String.join_cons, String.toList_append, List.count_append,
        count_newline_bodyLine (hlines line (List.mem_cons_self ..)),
        ih fun l hl => hlines l (List.mem_cons_of_mem _ hl), List.length_cons, Nat.add_comm]
  exact hcount _ fun line hline => Text.not_isLineBreak_of_mem_splitLines hline

end ApiScribe.Code

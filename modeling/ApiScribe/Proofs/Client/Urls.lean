import ApiScribe.Proofs.Client.Walk
import ApiScribe.Proofs.Code.WellFormed
import ApiScribe.Proofs.Document.Readable

set_option autoImplicit false

/-! # Addresses in the text of a client

The address of an endpoint is written as a literal into the request of its method, and the request
is indented as part of a class body. The literal leaves NEL and the line and paragraph separators as
they are, but the indentation takes them for line breaks. So an address comes through exactly when
it has none of these characters (`KeepsUrlsExactly`); otherwise its literal is cut in pieces. -/

namespace ApiScribe

open Text (OneLine IsIdentifier isLineBreak isUnescapedBreak quoted splitLines)

namespace Code

/-! ## The block of one method -/

/-- A method keeps an address in a class body: its block has a line of its own for the request, on
    which the address stands first, as a literal that reads back as the address. -/
def Method.KeepsUrl (method : Method) (url : String) : Prop :=
  ∃ literal rest, memberBlock method.render = "    " ++ method.opening ++
      "\n        return axios(\x7b\"url\": " ++ literal ++ rest ++ ");\n    \x7d\n" ∧
    OneLine literal ∧ OneLine rest ∧ Json.read literal = .ok (.string (.ofString url))

/-- A block of three lines belongs to a method without further line breaks. -/
theorem countP_isLineBreak_request {method : Method} {body : String}
    (hblock : memberBlock method.render =
      "    " ++ method.opening ++ "\n" ++ body ++ "\n    \x7d\n")
    (hopening : OneLine method.opening) (hbody : OneLine body) :
    method.request.toList.countP (fun c => isLineBreak c && c != '\r') = 0 := by
  have hnewline : ∀ {text : String}, OneLine text → text.toList.count '\n' = 0 := by
    intro text htext
    refine List.count_eq_zero_of_not_mem fun hmem => ?_
    exact absurd (htext '\n' hmem) (by decide)
  have hthree : (memberBlock method.render).toList.count '\n' = 3 := by
    rw [hblock]
    simp [List.count_append, hnewline hopening, hnewline hbody]
  -- the three newlines of the method itself leave none for its request
  have hlines := Text.countP_isLineBreak_le_length_splitLines method.render.toList
  rw [← count_newline_memberBlock, hthree, Method.render_eq] at hlines
  simp only [String.toList_append, List.countP_append] at hlines
  have hbreak : "\n".toList.countP (fun c => isLineBreak c && c != '\r') = 1 := by decide
  omega

/-- **A method keeps its address** exactly when the literal of the address stays on one line. -/
theorem Method.keepsUrl_iff {method : Method} (hname : IsIdentifier method.name)
    (harguments : ∀ argument ∈ method.arguments,
      IsIdentifier argument.name ∧ OneLine argument.type)
    (hverb : OneLine (quoted method.verb)) :
    method.KeepsUrl method.url ↔ IsLiteralText method.url := by
  have hopening := Method.oneLine_opening hname harguments
  constructor
  · rintro ⟨literal, rest, hblock, hliteral, hrest, -⟩ c hc
    refine Bool.eq_false_iff.2 fun hbreak => ?_
    have hbody : OneLine ("        return axios(\x7b\"url\": " ++ literal ++ rest ++ ");") := by
      simp only [Text.oneLine_append]
      exact ⟨⟨⟨by decide, hliteral⟩, hrest⟩, by decide⟩
    have hcount : method.request.toList.countP (fun c => isLineBreak c && c != '\r') = 0 := by
      refine countP_isLineBreak_request ?_ hopening hbody
      rw [hblock]
      apply String.toList_inj.1
      simp
    -- the break in the address is one in the request
    have hmem : c ∈ method.request.toList := by
      rw [Method.request_eq]
      simp [Text.mem_quoted_of_isUnescapedBreak hc hbreak]
    have hhard : (isLineBreak c && c != '\r') = true := Text.isLineBreak_of_isUnescapedBreak hbreak
    exact absurd hhard (by simpa using List.countP_eq_zero.1 hcount c hmem)
  · intro hurl
    have hliteral : OneLine (quoted method.url) := (Text.oneLine_quoted_iff _).2 hurl
    have hnames := fun a ha => (harguments a ha).1
    have hrequest := Method.oneLine_request hnames hliteral hverb
    have hrest : OneLine (", \"method\": " ++ quoted method.verb ++ method.clauses ++ "\x7d") := by
      simp only [Text.oneLine_append]
      exact ⟨⟨⟨by decide, hverb⟩, Method.oneLine_clauses hnames⟩, by decide⟩
    refine ⟨quoted method.url, _, ?_, hliteral, hrest, Text.read_quoted method.url⟩
    rw [memberBlock_method hopening hrequest, Method.request_eq]
    apply String.toList_inj.1
    simp

/-! ## Where the block stands -/

/-- The block of a method stands behind the earlier classes, the head of its own class, and the
    blocks of the methods before it. -/
theorem Module.render_around_method {unit : Module} {earlier later : List ClassDecl}
    {decl : ClassDecl} (hclasses : unit.classes = earlier ++ decl :: later)
    {first rest : List Method} {method : Method}
    (hmethods : decl.methods = first ++ method :: rest) :
    ∃ after, unit.render = render ⟨unit.imports, earlier⟩ ++ decl.header ++
      String.join (first.map fun method => memberBlock method.render) ++
      memberBlock method.render ++ after := by
  refine ⟨String.join
    ((rest.map Method.render ++ decl.getters.map Getter.render).map memberBlock) ++ "\x7d\n" ++
    String.join (later.map ClassDecl.render), ?_⟩
  simp [render, ClassDecl.render, ClassDecl.members, hclasses, hmethods, String.append_assoc,
    Function.comp_def]

end Code

/-! ## The client of a document -/

/-- The keys of the endpoints are identifiers, and so are the names and the types of their
    fields. -/
def Schema.HasIdentifiers (schema : Schema) : Prop :=
  ∀ branch ∈ schema.branches, ∀ child ∈ endpointsOf branch.children, IsIdentifier child.1 ∧
    ∀ field ∈ child.2.request.fields?.getD [], IsIdentifier field.1 ∧ IsIdentifier field.2

instance (schema : Schema) : Decidable schema.HasIdentifiers :=
  inferInstanceAs (Decidable (∀ branch ∈ schema.branches, ∀ child ∈ endpointsOf branch.children,
    IsIdentifier child.1 ∧
      ∀ field ∈ child.2.request.fields?.getD [], IsIdentifier field.1 ∧ IsIdentifier field.2))

namespace Client

theorem mem_fields_of_mem_arguments {options : Options} {key : String} {endpoint : Endpoint}
    {argument : Argument} (h : argument ∈ (methodOf options key endpoint).arguments) :
    (argument.name, argument.type) ∈ endpoint.request.fields?.getD [] := by
  have hargument : ∀ {fields : Option Fields}, argument ∈ argumentsOf fields →
      (argument.name, argument.type) ∈ fields.getD [] := by
    intro fields hmem
    obtain ⟨field, hfield, rfl⟩ := List.mem_map.1 hmem
    exact hfield
  cases hr : endpoint.request <;>
    simp only [Code.Method.arguments, methodOf, queryArguments, bodyArguments, hr, List.append_nil,
      List.nil_append, List.not_mem_nil] at h
  · exact hargument h
  · exact hargument h

theorem oneLine_verb {endpoint : Endpoint} (h : (Node.endpoint endpoint).isDocumented = true) :
    OneLine (quoted (Text.lower endpoint.request.verb)) := by
  have hverb : endpoint.request.verb ∈ ["GET", "POST", "PUT"] := by
    simpa [Node.isDocumented] using h
  have table : ∀ verb ∈ ["GET", "POST", "PUT"], OneLine (quoted (Text.lower verb)) := by decide
  exact table _ hverb

/-- What a client has in front of the block of an endpoint: the imports, the classes of the branches
    before, the head of the class, and the blocks of the endpoints before. -/
def textBefore (options : Options) (earlier : List Branch) (branch : Branch)
    (first : List (String × Endpoint)) : String :=
  Code.Module.render ⟨options.imports, earlier.map (classOf options)⟩ ++
    (classOf options branch).header ++
    String.join (first.map fun child => Code.memberBlock (methodOf options child.1 child.2).render)

theorem render_around_endpoint (options : Options) {earlier later : List Branch} {branch : Branch}
    {first rest : List (String × Endpoint)} {key : String} {endpoint : Endpoint}
    (hendpoints : endpointsOf branch.children = first ++ (key, endpoint) :: rest) :
    ∃ after, Code.Module.render
        ⟨options.imports, (earlier ++ branch :: later).map (classOf options)⟩ =
      textBefore options earlier branch first ++
        Code.memberBlock (methodOf options key endpoint).render ++ after := by
  have hmethods : (classOf options branch).methods =
      first.map (fun child => methodOf options child.1 child.2) ++
        methodOf options key endpoint ::
          rest.map fun child => methodOf options child.1 child.2 := by
    simp [classOf, methodsOf, hendpoints]
  have hclasses : Code.Module.classes
        ⟨options.imports, (earlier ++ branch :: later).map (classOf options)⟩ =
      earlier.map (classOf options) ++ classOf options branch :: later.map (classOf options) := by
    simp
  obtain ⟨after, hafter⟩ := Code.Module.render_around_method hclasses hmethods
  refine ⟨after, hafter.trans ?_⟩
  simp only [textBefore, List.map_map, Function.comp_def]

/-- Addresses come through generation if and only if their literals stay on one line: the client has
    the block of every endpoint at its place, and the block keeps the address under this condition
    and no other. -/
def KeepsUrlsExactly (options : Options) (schema : Schema) : Prop :=
  ∃ text events, source options schema = .ok (text, events) ∧
    ∀ earlier branch later, schema.branches = earlier ++ branch :: later →
    ∀ first key endpoint rest, endpointsOf branch.children = first ++ (key, endpoint) :: rest →
      (∃ after, text = textBefore options earlier branch first ++
        Code.memberBlock (methodOf options key endpoint).render ++ after) ∧
      ((methodOf options key endpoint).KeepsUrl (endpoint.url.getD options.missingUrl) ↔
        IsLiteralText (endpoint.url.getD options.missingUrl))

/-- **Addresses come through generation** exactly when they have no NEL and no line or paragraph
    separator, for every accepted document and all options. -/
theorem keepsUrlsExactly_of_read (options : Options) {scopes scopes' : Scopes} {document : Json}
    {schema : Schema} (hread : Document.read scopes document = .ok (schema, scopes'))
    (hplain : schema.HasIdentifiers) : KeepsUrlsExactly options schema := by
  have hdocumented := Document.read_documented hread
  obtain ⟨events, hsource⟩ := source_eq_ok options (Document.allKnown_of_read hread)
  refine ⟨_, events, hsource, ?_⟩
  intro earlier branch later hbranches first key endpoint rest hendpoints
  have hbranch : branch ∈ schema.branches := by simp [hbranches]
  have hmem : (key, endpoint) ∈ endpointsOf branch.children := by simp [hendpoints]
  obtain ⟨hkey, hfields⟩ := hplain branch hbranch _ hmem
  constructor
  · rw [hbranches]
    exact render_around_endpoint options hendpoints
  · have harguments : ∀ argument ∈ (methodOf options key endpoint).arguments,
        IsIdentifier argument.name ∧ OneLine argument.type := by
      intro argument hargument
      obtain ⟨hname, htype⟩ := hfields _ (mem_fields_of_mem_arguments hargument)
      exact ⟨hname, htype.oneLine⟩
    exact Code.Method.keepsUrl_iff hkey harguments
      (oneLine_verb (hdocumented branch hbranch _ (mem_of_mem_endpointsOf hmem)))

/-- A document with one endpoint, a GET without fields. -/
def documentAt (url : String) : Json :=
  .object [("apis", .object [("a", .object [("method", .string "GET"), ("url", .string url)])])]

/-- Its schema. -/
def schemaAt (url : String) : Schema := ⟨none, none, 0, [("a", .endpoint ⟨some url, .get none, 1⟩)]⟩

theorem keepsUrlsExactly_quotes :
    Document.read {} (documentAt "/a\"\x7d);\n") =
        .ok (schemaAt "/a\"\x7d);\n", ⟨[⟨[], some 0⟩, ⟨[], none⟩]⟩) ∧
      (schemaAt "/a\"\x7d);\n").HasIdentifiers ∧ KeepsUrlsExactly {} (schemaAt "/a\"\x7d);\n") := by
  have hread : Document.read {} (documentAt "/a\"\x7d);\n") =
      .ok (schemaAt "/a\"\x7d);\n", ⟨[⟨[], some 0⟩, ⟨[], none⟩]⟩) := rfl
  have hplain : (schemaAt "/a\"\x7d);\n").HasIdentifiers := by decide
  exact ⟨hread, hplain, keepsUrlsExactly_of_read {} hread hplain⟩

/-- The client of the document with a line separator in its address. -/
def brokenText : String :=
  "import axios from \"axios\";\nexport class XSClient \x7b\n" ++
    "    public async a(): Promise<any> \x7b\n        return axios(\x7b\"url\": \"x\n" ++
    "    y\", \"method\": \"get\"\x7d);\n    \x7d\n\x7d\n"

/-- An address with a line separator is cut there, in the middle of its literal. -/
theorem not_keepsUrl_lineSeparator :
    Document.read {} (documentAt "x\u2028y") =
        .ok (schemaAt "x\u2028y", ⟨[⟨[], some 0⟩, ⟨[], none⟩]⟩) ∧
      (schemaAt "x\u2028y").HasIdentifiers ∧
      (∃ events, source {} (schemaAt "x\u2028y") = .ok (brokenText, events)) ∧
      ¬ (methodOf {} "a" ⟨some "x\u2028y", .get none, 1⟩).KeepsUrl "x\u2028y" := by
  obtain ⟨events, hsource⟩ := source_eq_ok {} (show (schemaAt "x\u2028y").AllKnown by decide)
  have htext : Code.Module.render
      ⟨Options.imports {}, (schemaAt "x\u2028y").branches.map (classOf {})⟩ = brokenText := by
    decide +kernel
  rw [htext] at hsource
  refine ⟨rfl, by decide, ⟨events, hsource⟩, fun hkeeps => ?_⟩
  have hliteral := (Code.Method.keepsUrl_iff (by decide) (by decide) (by decide)).1 hkeeps
  exact absurd hliteral (by decide)

end Client

end ApiScribe

import ApiScribe.Text.Quoted

set_option autoImplicit false

/-! # URL templates

A template is literal text with parameters in it: `<name>` stands for a parameter of type `any` and
`<name:type>` for one of the given type. It is scanned one character at a time by a machine whose
mode says what the characters since the last piece belong to; a piece is given out when the
character that ends it is met. A parameter that is not closed at the end of the template is dropped.

A template becomes an expression that builds the URL, its literal runs as string literals and its
parameters by name, and the list of arguments that the expression needs. -/

namespace ApiScribe

/-- A named value with the text of its type. -/
structure Argument where
  name : String
  type : String
deriving DecidableEq, Repr

namespace Template

/-! ## Pieces -/

/-- A piece of a template: a run of literal text, or a parameter and the type given with it. -/
inductive Piece where
  | literal (text : String)
  | parameter (name : String) (type : Option String)
deriving DecidableEq, Repr

/-- The type of a parameter that is given without one. -/
def defaultType : String := "any"

/-- The piece as an operand of the expression. -/
def Piece.operand : Piece → String
  | .literal text => Text.quoted text
  | .parameter name _ => name

/-- The argument that the piece asks for. -/
def Piece.argument? : Piece → Option Argument
  | .literal _ => none
  | .parameter name type => some ⟨name, type.getD defaultType⟩

/-- The expression that builds the URL: the operands of all pieces, added up. -/
def expression (pieces : List Piece) : String := " + ".intercalate (pieces.map Piece.operand)

/-- The arguments of the expression, in the order of the template. -/
def arguments (pieces : List Piece) : List Argument := pieces.filterMap Piece.argument?

/-! ## Errors -/

/-- A token that stands where the grammar has no place for it. -/
structure UnexpectedToken where
  token : String
  position : Option Int
deriving DecidableEq, Repr

/-- The wording of the error, with the position where it is known. -/
def UnexpectedToken.message (e : UnexpectedToken) : String :=
  match e.position with
  | none => s!"Unexpected token {e.token}"
  | some position => s!"Unexpected token {e.token} at position {position}"

/-! ## The scanner -/

/-- What the characters since the last piece belong to. -/
inductive Mode where
  | literal (run : String)
  | naming (name : String)
  | typing (name type : String)
deriving DecidableEq, Repr

/-- The piece that a literal run makes; an empty run makes none. -/
def literalPiece (run : String) : List Piece := if run.isEmpty then [] else [.literal run]

/-- One character: the pieces that it completes and the mode after it, or `none` where it may not
    stand. -/
def Mode.step (mode : Mode) (c : Char) : Option (List Piece × Mode) :=
  match mode with
  | .literal run =>
    if c = '<' then some (literalPiece run, .naming "")
    else if c = '>' then none
    else some ([], .literal (run.push c))
  | .naming name =>
    if c = '<' then none
    else if c = '>' then
      if name.isEmpty then none else some ([.parameter name none], .literal "")
    else if c = ':' then some ([], .typing name "")
    else some ([], .naming (name.push c))
  | .typing name type =>
    if c = '<' ∨ c = ':' then none
    else if c = '>' then
      if name.isEmpty || type.isEmpty then none
      else some ([.parameter name (some type)], .literal "")
    else some ([], .typing name (type.push c))

/-- The pieces that the end of the template completes. -/
def Mode.finish : Mode → List Piece
  | .literal run => literalPiece run
  | .naming _ => []
  | .typing _ _ => []

/-- Scans a text that starts at `position` in the template: the pieces completed on the way and
    the mode at its end. -/
def scan (mode : Mode) (position : Nat) :
    List Char → Except UnexpectedToken (List Piece × Mode)
  | [] => .ok ([], mode)
  | c :: rest =>
    match mode.step c with
    | none => .error ⟨c.toString, some position⟩
    | some (pieces, next) =>
      match scan next (position + 1) rest with
      | .error e => .error e
      | .ok (more, last) => .ok (pieces ++ more, last)

/-- A text in two parts is scanned part after part. -/
theorem scan_append (mode : Mode) (position : Nat) (first second : List Char) :
    scan mode position (first ++ second) =
      match scan mode position first with
      | .error e => .error e
      | .ok (done, next) =>
        match scan next (position + first.length) second with
        | .error e => .error e
        | .ok (more, last) => .ok (done ++ more, last) := by
  induction first generalizing mode position with
  | nil =>
    simp only [List.nil_append, scan, List.length_nil, Nat.add_zero]
    cases scan mode position second <;> rfl
  | cons c rest ih =>
    cases hs : mode.step c with
    | none => simp [scan, hs]
    | some result =>
      obtain ⟨pieces, next⟩ := result
      have hlen : position + 1 + rest.length = position + (c :: rest).length := by
        simp only [List.length_cons]
        omega
      simp only [List.cons_append, scan, hs, ih, hlen]
      cases scan next (position + 1) rest with
      | error e => rfl
      | ok first =>
        obtain ⟨done, last⟩ := first
        dsimp only
        cases scan last (position + (c :: rest).length) second with
        | error e => rfl
        | ok second => simp [List.append_assoc]

/-- The pieces of a template. -/
def pieces (url : String) : Except UnexpectedToken (List Piece) :=
  match scan (.literal "") 0 url.toList with
  | .error e => .error e
  | .ok (done, last) => .ok (done ++ last.finish)

end Template

end ApiScribe

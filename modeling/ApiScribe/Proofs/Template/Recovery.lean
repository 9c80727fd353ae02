import ApiScribe.Proofs.Template.Composition
import ApiScribe.Proofs.Template.Evaluation

set_option autoImplicit false

/-! # Templates recovered from their expressions

A literal run may hold quotes, plus signs and names, so the expression of a template can look as if
it had more operands than it has. Nothing is lost all the same: the operands are read back from the
expression in one way, and the arguments tell the types. What neither of them shows is whether a
parameter was given its type or took the default one. So two templates without an open parameter
have the same expression and the same arguments exactly if they are one template once the default
type is written out (`expression_arguments_eq_iff`).

Writing the types out is a matter of the text alone (`withTypesWritten`). It is related to the
pieces through the written form of a piece, one piece after the other. -/

namespace ApiScribe.Template

open Text (IsIdentifier)

/-! ## Writing the default type out -/

/-- The text with the default type in every parameter without a type. `untyped` says whether the
    text starts inside a parameter that has had no colon so far. -/
def writeTypes (untyped : Bool) : List Char → List Char
  | [] => []
  | c :: rest =>
    if c = '<' then c :: writeTypes true rest
    else if c = ':' then c :: writeTypes false rest
    else if c = '>' ∧ untyped = true then
      ':' :: defaultType.toList ++ c :: writeTypes false rest
    else c :: writeTypes untyped rest

/-- The template with `<name:any>` in place of every `<name>`. -/
def withTypesWritten (url : String) : String := String.ofList (writeTypes false url.toList)

/-- Colons outside parameters and inside types stay as they are. -/
example : withTypesWritten "/a:b/<id>/<n:number><q:any>" = "/a:b/<id:any>/<n:number><q:any>" := by
  decide

/-- Text that neither opens nor closes a parameter, and does not begin a type, stays as it is. -/
theorem writeTypes_append {p : Char → Bool} {untyped : Bool}
    (hstep : ∀ (c : Char) (rest : List Char), p c = true →
      writeTypes untyped (c :: rest) = c :: writeTypes untyped rest)
    {text : List Char} (htext : ∀ c ∈ text, p c = true) (rest : List Char) :
    writeTypes untyped (text ++ rest) = text ++ writeTypes untyped rest := by
  induction text with
  | nil => rfl
  | cons c text ih =>
    rw [List.cons_append, hstep c _ (htext c (List.mem_cons_self ..)),
      ih fun x hx => htext x (List.mem_cons_of_mem _ hx), List.cons_append]

theorem writeTypes_run {run : List Char} (hrun : ∀ c ∈ run, isRunChar c = true)
    (rest : List Char) : writeTypes false (run ++ rest) = run ++ writeTypes false rest := by
  refine writeTypes_append (fun c rest hc => ?_) hrun rest
  simp only [isRunChar, Bool.and_eq_true, decide_eq_true_eq] at hc
  by_cases hcolon : c = ':'
  · simp [writeTypes, hcolon]
  · simp [writeTypes, hc.1, hcolon]

theorem writeTypes_word (untyped : Bool) {word : List Char}
    (hword : ∀ c ∈ word, isWordChar c = true) (rest : List Char) :
    writeTypes untyped (word ++ rest) = word ++ writeTypes untyped rest := by
  refine writeTypes_append (fun c rest hc => ?_) hword rest
  simp only [isWordChar, Bool.and_eq_true, decide_eq_true_eq] at hc
  obtain ⟨⟨hl, hr⟩, hcolon⟩ := hc
  simp [writeTypes, hl, hr, hcolon]

/-! ## Pieces with their types -/

/-- The piece with the default type, if it is a parameter without a type. -/
def Piece.typed : Piece → Piece
  | .literal run => .literal run
  | .parameter name type => .parameter name (some (type.getD defaultType))

theorem Piece.operand_typed (piece : Piece) : piece.typed.operand = piece.operand := by
  cases piece <;> rfl

theorem Piece.argument?_typed (piece : Piece) : piece.typed.argument? = piece.argument? := by
  cases piece <;> rfl

theorem Piece.WellFormed.typed {piece : Piece} (h : piece.WellFormed) : piece.typed.WellFormed := by
  cases piece with
  | literal run => exact h
  | parameter name type =>
    refine ⟨h.1, ?_⟩
    intro t ht
    cases type with
    | none =>
      obtain rfl : defaultType = t := Option.some.inj ht
      exact ⟨by decide, by simp [defaultType, isWordChar]⟩
    | some type => exact h.2 t ht

theorem startsLiteral_map_typed (ps : List Piece) :
    startsLiteral (ps.map Piece.typed) = startsLiteral ps := by
  cases ps with
  | nil => rfl
  | cons piece rest => cases piece <;> rfl

theorem separated_map_typed {ps : List Piece} (h : Separated ps) :
    Separated (ps.map Piece.typed) := by
  induction ps with
  | nil => trivial
  | cons piece rest ih =>
    cases piece with
    | literal run => exact ⟨(startsLiteral_map_typed rest).trans h.1, ih h.2⟩
    | parameter name type => exact ih h

/-- The expression and the arguments do not tell whether a type was given. -/
theorem expression_map_typed (ps : List Piece) : expression (ps.map Piece.typed) = expression ps := by
  rw [expression, expression, List.map_map]
  exact congrArg _ (List.map_congr_left fun piece _ => piece.operand_typed)

theorem arguments_map_typed (ps : List Piece) : arguments (ps.map Piece.typed) = arguments ps := by
  rw [arguments, arguments, List.filterMap_map]
  exact congrArg (fun f => ps.filterMap f) (funext Piece.argument?_typed)

/-! ## The text and its pieces -/

/-- A written piece becomes the written piece with its type. -/
theorem writeTypes_written {piece : Piece} (h : piece.WellFormed) (rest : List Char) :
    writeTypes false (piece.written.toList ++ rest) =
      piece.typed.written.toList ++ writeTypes false rest := by
  have hopen : ∀ text : List Char, writeTypes false ('<' :: text) = '<' :: writeTypes true text := by
    intro text
    rw [writeTypes, if_pos rfl]
  have hclose : ∀ text : List Char, writeTypes false ('>' :: text) = '>' :: writeTypes false text := by
    intro text
    rw [writeTypes, if_neg (by decide), if_neg (by decide), if_neg (by decide)]
  cases piece with
  | literal run => exact writeTypes_run h.2 rest
  | parameter name type =>
    obtain ⟨⟨-, hname⟩, htype⟩ := h
    cases type with
    | none =>
      -- the colon that is missing is noticed where the parameter is closed
      have hmissing : writeTypes true ('>' :: rest) =
          ':' :: defaultType.toList ++ '>' :: writeTypes false rest := by
        rw [writeTypes, if_neg (by decide), if_neg (by decide), if_pos ⟨rfl, rfl⟩]
      have hwritten : (Piece.parameter name none).written.toList ++ rest =
          '<' :: (name.toList ++ '>' :: rest) := by simp [Piece.written]
      rw [hwritten, hopen, writeTypes_word true hname, hmissing]
      simp [Piece.typed, Piece.written]
    | some type =>
      have hcolon : ∀ text : List Char,
          writeTypes true (':' :: text) = ':' :: writeTypes false text := by
        intro text
        rw [writeTypes, if_neg (by decide), if_pos rfl]
      have hwritten : (Piece.parameter name (some type)).written.toList ++ rest =
          '<' :: (name.toList ++ ':' :: (type.toList ++ '>' :: rest)) := by simp [Piece.written]
      rw [hwritten, hopen, writeTypes_word true hname, hcolon,
        writeTypes_word false (htype type rfl).2, hclose]
      simp [Piece.typed, Piece.written]

theorem writeTypes_pieces {ps : List Piece} (h : ∀ piece ∈ ps, piece.WellFormed) :
    writeTypes false (ps.flatMap fun piece => piece.written.toList) =
      (ps.map Piece.typed).flatMap fun piece => piece.written.toList := by
  induction ps with
  | nil => rfl
  | cons piece rest ih =>
    rw [List.flatMap_cons, writeTypes_written (h piece (List.mem_cons_self ..)),
      ih fun p hp => h p (List.mem_cons_of_mem _ hp), List.map_cons, List.flatMap_cons]

/-- A closed template consists of its pieces alone. -/
theorem decomposes_of_closed {url : String} {ps : List Piece} (h : pieces url = .ok ps)
    (hclosed : url.toList.count '<' = url.toList.count '>') : Decomposes url ps none := by
  obtain ⟨tail, htail⟩ := exists_decomposes_of_pieces_eq_ok h
  have hwritten : url.toList =
      (ps.flatMap fun piece => piece.written.toList) ++ (unclosed tail).toList := by
    simp [htail.written, List.flatMap_map]
  obtain rfl := eq_none_of_closed htail.wellFormed htail.openEnd hwritten hclosed
  exact htail

/-- **Written types.** With the types written out, a closed template consists of its pieces with
    their types. -/
theorem Decomposes.withTypesWritten {url : String} {ps : List Piece} (h : Decomposes url ps none) :
    Decomposes (withTypesWritten url) (ps.map Piece.typed) none where
  written := by
    have hurl : url.toList = ps.flatMap fun piece => piece.written.toList := by
      simp [h.written, List.flatMap_map, unclosed]
    rw [Template.withTypesWritten, hurl, writeTypes_pieces h.wellFormed]
    simp [← String.toList_inj, List.flatMap_map, unclosed]
  wellFormed := by
    intro piece hpiece
    obtain ⟨p, hp, rfl⟩ := List.mem_map.1 hpiece
    exact (h.wellFormed p hp).typed
  separated := separated_map_typed h.separated
  openEnd := h.openEnd

/-! ## Pieces recovered -/

/-- What an expression is read as, together with the arguments, gives the pieces with their types:
    every variable takes the type of the next argument. -/
theorem map_typed_eq {ps qs : List Piece} (hread : ps.map Piece.asRead = qs.map Piece.asRead)
    (harguments : arguments ps = arguments qs) : ps.map Piece.typed = qs.map Piece.typed := by
  induction ps generalizing qs with
  | nil => rw [List.map_eq_nil_iff.1 hread.symm]
  | cons p ps ih =>
    cases qs with
    | nil => cases hread
    | cons q qs =>
      obtain ⟨hfirst, hrest⟩ := List.cons.inj hread
      cases p with
      | literal run =>
        cases q with
        | literal run' =>
          obtain rfl := LooseText.ofString_injective (Operand.literal.inj hfirst)
          rw [List.map_cons, List.map_cons, ih hrest harguments]
        | parameter name' type' => cases hfirst
      | parameter name type =>
        cases q with
        | literal run' => cases hfirst
        | parameter name' type' =>
          obtain ⟨hargument, hmore⟩ := List.cons.inj harguments
          obtain ⟨rfl, htype⟩ := Argument.mk.inj hargument
          rw [List.map_cons, List.map_cons, ih hrest hmore, Piece.typed, Piece.typed, htype]

/-- **An expression and its arguments determine the template.** Two templates without an open
    parameter have the same expression and the same arguments exactly if they are equal with the
    type `any` written out in every parameter without a type. -/
theorem expression_arguments_eq_iff {u v : String} {ps qs : List Piece}
    (hu : pieces u = .ok ps) (hv : pieces v = .ok qs)
    (hclosed : u.toList.count '<' = u.toList.count '>')
    (hclosed' : v.toList.count '<' = v.toList.count '>')
    (hnames : ∀ argument ∈ arguments ps, IsIdentifier argument.name)
    (hnames' : ∀ argument ∈ arguments qs, IsIdentifier argument.name) :
    (expression ps = expression qs ∧ arguments ps = arguments qs) ↔
      withTypesWritten u = withTypesWritten v := by
  have hps := (decomposes_of_closed hu hclosed).withTypesWritten
  have hqs := (decomposes_of_closed hv hclosed').withTypesWritten
  constructor
  · rintro ⟨hexpression, harguments⟩
    have hread := isExpression_expression hnames
    rw [hexpression] at hread
    have htyped := map_typed_eq (hread.unique (isExpression_expression hnames')) harguments
    rw [hps.written, hqs.written, htyped]
  · intro h
    rw [h] at hps
    obtain ⟨htyped, -⟩ := hps.unique hqs
    rw [← expression_map_typed ps, ← arguments_map_typed ps, htyped, expression_map_typed,
      arguments_map_typed]
    exact ⟨rfl, rfl⟩

/-- The pieces of a template whose literal run looks like a part of an expression. -/
def lookalikePieces (type : Option String) : List Piece :=
  [.literal "\" + id:", .parameter "id" type]

/-- The parameter behind the literal run has no type, then the default one, then another. -/
theorem expression_arguments_eq_iff_lookalike :
    pieces "\" + id:<id>" = .ok (lookalikePieces none) ∧
    pieces "\" + id:<id:any>" = .ok (lookalikePieces (some "any")) ∧
    pieces "\" + id:<id:text>" = .ok (lookalikePieces (some "text")) ∧
    (∀ argument ∈ arguments (lookalikePieces none), IsIdentifier argument.name) ∧
    withTypesWritten "\" + id:<id>" = withTypesWritten "\" + id:<id:any>" ∧
    withTypesWritten "\" + id:<id>" ≠ withTypesWritten "\" + id:<id:text>" := by
  have hnone : pieces "\" + id:<id>" = .ok (lookalikePieces none) := rfl
  have hany : pieces "\" + id:<id:any>" = .ok (lookalikePieces (some "any")) := rfl
  have htext : pieces "\" + id:<id:text>" = .ok (lookalikePieces (some "text")) := rfl
  have hnames : ∀ argument ∈ arguments (lookalikePieces none), IsIdentifier argument.name := by
    decide
  refine ⟨hnone, hany, htext, hnames, ?_, ?_⟩
  · exact (expression_arguments_eq_iff hnone hany (by decide) (by decide) hnames
      (by decide)).1 ⟨rfl, rfl⟩
  · intro h
    obtain ⟨-, harguments⟩ := (expression_arguments_eq_iff hnone htext (by decide) (by decide)
      hnames (by decide)).2 h
    exact absurd harguments (by decide)

end ApiScribe.Template

import ApiScribe.Proofs.Template.Grammar
import ApiScribe.Proofs.Text.Delimited
import ApiScribe.Proofs.Text.Identifier

set_option autoImplicit false

/-! # What the expression of a template evaluates to

The expression of a template is a text, and what it means depends on how a reader of the generated
source takes it apart. `IsExpression` says which texts are sums of string literals and variables,
with blanks wherever the language allows them, and no text is a sum in two ways (`IsSum.unique`):
a literal is read in the same way whatever follows it, and a variable ends at the first character
that names do not have.

A sum is worked out from the left. Two numbers are added up and anything else is concatenated, so
the numbers at the start of a sum would be added before the first text is met. Once a text is met
everything behind it is concatenated (`foldl_add_text`). Hence the expression gives the template
with its parameters filled in if the template starts with literal text, or if all values are
texts (`expression_evaluates`). -/

namespace ApiScribe.Template

open Json (isBlank readText)
open Text (IsIdentifier isIdentifierChar quoted)

/-! ## Sums of literals and variables -/

/-- An operand of an expression as its reader sees it. -/
inductive Operand where
  | literal (content : LooseText)
  | named (name : String)
deriving DecidableEq, Repr

/-- The text is a JSON string literal with the content, from its opening quote to its closing one,
    or it is the name of the variable. -/
def Operand.IsWrittenAs : Operand → List Char → Prop
  | .literal content, text =>
    ∃ body, text = '"' :: body ∧ readText text 0 [] body = .ok (content, [])
  | .named name, text => text = name.toList ∧ IsIdentifier name

/-- The text is a sum of the operands, of which there is at least one. Blanks may stand around a
    plus sign. -/
inductive IsSum : List Char → List Operand → Prop
  | single {text : List Char} {operand : Operand} (hwritten : operand.IsWrittenAs text) :
      IsSum text [operand]
  | plus {text before after rest : List Char} {operand : Operand} {operands : List Operand}
      (hwritten : operand.IsWrittenAs text) (hbefore : ∀ c ∈ before, isBlank c = true)
      (hafter : ∀ c ∈ after, isBlank c = true) (hrest : IsSum rest operands) :
      IsSum (text ++ (before ++ '+' :: (after ++ rest))) (operand :: operands)

/-- The text is the sum of the operands; the empty text is the sum of none. -/
def IsExpression (text : String) (operands : List Operand) : Prop :=
  (text = "" ∧ operands = []) ∨ IsSum text.toList operands

/-! ## One way to read a sum -/

/-- Where an operand can end: at the end of the text, or before a character that names do not
    have. -/
def EndsOperand (rest : List Char) : Prop :=
  ∀ c ∈ rest.head?, isIdentifierChar c = false

theorem isBlank_eq_false_of_isIdentifierChar {c : Char} (h : isIdentifierChar c = true) :
    isBlank c = false := by
  refine Bool.eq_false_iff.2 fun hblank => ?_
  simp only [isBlank, List.mem_cons, List.not_mem_nil, or_false, decide_eq_true_eq] at hblank
  rcases hblank with rfl | rfl | rfl | rfl <;> exact absurd h (by decide)

/-- What stands between two operands ends the first of them. -/
theorem endsOperand_separator {before : List Char} (hbefore : ∀ c ∈ before, isBlank c = true)
    (rest : List Char) : EndsOperand (before ++ '+' :: rest) := by
  intro c hc
  cases before with
  | nil =>
    obtain rfl : '+' = c := by simpa using hc
    decide
  | cons b before =>
    obtain rfl : b = c := by simpa using hc
    refine Bool.eq_false_iff.2 fun hname => ?_
    have hblank := hbefore b (List.mem_cons_self ..)
    rw [isBlank_eq_false_of_isIdentifierChar hname] at hblank
    cases hblank

/-- A name ends where no more characters of names follow. -/
theorem name_append_inj {u v s t : List Char} (hu : ∀ c ∈ u, isIdentifierChar c = true)
    (hv : ∀ c ∈ v, isIdentifierChar c = true) (hs : EndsOperand s) (ht : EndsOperand t)
    (h : u ++ s = v ++ t) : u = v ∧ s = t := by
  -- a quote behind both texts makes sure that a character follows either name
  have hend : ∀ {rest : List Char}, EndsOperand rest →
      ∃ c more, rest ++ ['"'] = c :: more ∧ isIdentifierChar c = false := by
    intro rest hrest
    cases rest with
    | nil => exact ⟨'"', [], rfl, by decide⟩
    | cons c rest => exact ⟨c, rest ++ ['"'], rfl, hrest c rfl⟩
  obtain ⟨c, x, hx, hc⟩ := hend hs
  obtain ⟨d, y, hy, hd⟩ := hend ht
  have hquoted : u ++ c :: x = v ++ d :: y := by
    rw [← hx, ← hy, ← List.append_assoc, ← List.append_assoc, h]
  obtain ⟨rfl, -⟩ := Text.word_append_inj hu hv hc hd hquoted
  exact ⟨rfl, List.append_cancel_left h⟩

/-- The first character of a written operand is no blank, and it tells a literal from a variable. -/
theorem Operand.IsWrittenAs.exists_cons {operand : Operand} {text : List Char}
    (h : operand.IsWrittenAs text) : ∃ c rest, text = c :: rest ∧ isBlank c = false ∧
      (isIdentifierChar c = true ↔ ∃ name, operand = .named name) := by
  cases operand with
  | literal content =>
    obtain ⟨body, rfl, -⟩ := h
    exact ⟨'"', body, rfl, by decide, by simp; decide⟩
  | named name =>
    obtain ⟨rfl, hname⟩ := h
    obtain ⟨c, rest, hcons⟩ := List.exists_cons_of_ne_nil hname.toList_ne_nil
    have hc : isIdentifierChar c = true := hname.2 c (by rw [hcons]; exact List.mem_cons_self ..)
    exact ⟨c, rest, hcons, isBlank_eq_false_of_isIdentifierChar hc, by simp [hc]⟩

/-- An operand is told from what follows it. -/
theorem Operand.IsWrittenAs.append_inj {o o' : Operand} {text text' s t : List Char}
    (h : o.IsWrittenAs text) (h' : o'.IsWrittenAs text') (hs : EndsOperand s) (ht : EndsOperand t)
    (heq : text ++ s = text' ++ t) : o = o' ∧ s = t := by
  obtain ⟨c, more, hcons, -, hkind⟩ := h.exists_cons
  obtain ⟨c', more', hcons', -, hkind'⟩ := h'.exists_cons
  have hfirst : c = c' := by
    rw [hcons, hcons'] at heq
    exact (List.cons.inj heq).1
  subst hfirst
  cases o with
  | literal content =>
    cases o' with
    | literal content' =>
      obtain ⟨body, rfl, hread⟩ := h
      obtain ⟨body', rfl, hread'⟩ := h'
      have hbody : body ++ s = body' ++ t := (List.cons.inj heq).2
      have hleft := Text.readText_append hread [] s
      rw [hbody, Text.readText_append hread' [] t] at hleft
      obtain ⟨rfl, hrest⟩ := Prod.mk.inj (Except.ok.inj hleft)
      exact ⟨rfl, hrest.symm⟩
    | named name => simpa using hkind.1 (hkind'.2 ⟨name, rfl⟩)
  | named name =>
    cases o' with
    | literal content => simpa using hkind'.1 (hkind.2 ⟨name, rfl⟩)
    | named name' =>
      obtain ⟨rfl, hname⟩ := h
      obtain ⟨rfl, hname'⟩ := h'
      obtain ⟨hnames, hrest⟩ := name_append_inj hname.2 hname'.2 hs ht heq
      exact ⟨by rw [String.toList_inj.1 hnames], hrest⟩

theorem IsSum.exists_cons {text : List Char} {operands : List Operand} (h : IsSum text operands) :
    ∃ c rest, text = c :: rest ∧ isBlank c = false := by
  cases h with
  | single hwritten =>
    obtain ⟨c, rest, hcons, hblank, -⟩ := hwritten.exists_cons
    exact ⟨c, rest, hcons, hblank⟩
  | plus hwritten _ _ _ =>
    obtain ⟨c, rest, hcons, hblank, -⟩ := hwritten.exists_cons
    exact ⟨c, _, by rw [hcons]; rfl, hblank⟩

/-- The plus sign between two operands is found, whatever blanks are around it. -/
theorem separator_append_inj {before after before' after' s t : List Char}
    (hbefore : ∀ c ∈ before, isBlank c = true) (hafter : ∀ c ∈ after, isBlank c = true)
    (hbefore' : ∀ c ∈ before', isBlank c = true) (hafter' : ∀ c ∈ after', isBlank c = true)
    {os os' : List Operand} (hs : IsSum s os) (ht : IsSum t os')
    (h : before ++ '+' :: (after ++ s) = before' ++ '+' :: (after' ++ t)) : s = t := by
  have hplus : isBlank '+' = false := by decide
  obtain ⟨-, hrest⟩ := Text.word_append_inj hbefore hbefore' hplus hplus h
  have hrest := (List.cons.inj hrest).2
  obtain ⟨c, more, rfl, hc⟩ := hs.exists_cons
  obtain ⟨d, more', rfl, hd⟩ := ht.exists_cons
  exact (Text.word_append_inj hafter hafter' hc hd hrest).2

/-- **No text is a sum in two ways.** -/
theorem IsSum.unique {text : List Char} {os os' : List Operand} (h : IsSum text os)
    (h' : IsSum text os') : os = os' := by
  have hend : EndsOperand [] := by simp [EndsOperand]
  -- an operand that ends the text leaves no plus sign behind it
  have hlast : ∀ {o o' : Operand} {u v before rest : List Char}, o.IsWrittenAs u →
      o'.IsWrittenAs v → (∀ c ∈ before, isBlank c = true) → u ≠ v ++ (before ++ '+' :: rest) := by
    intro o o' u v before rest hu hv hbefore heq
    obtain ⟨-, hnil⟩ := hu.append_inj hv hend (endsOperand_separator hbefore rest)
      (by rw [List.append_nil]; exact heq)
    simp at hnil
  induction h generalizing os' with
  | @single text o hwritten =>
    generalize htext : text = text' at h'
    cases h' with
    | single hwritten' =>
      obtain ⟨rfl, -⟩ := hwritten.append_inj hwritten' hend hend (by rw [htext])
      rfl
    | plus hwritten' hbefore' _ _ => exact absurd htext (hlast hwritten hwritten' hbefore')
  | @plus text before after rest o os hwritten hbefore hafter hrest ih =>
    generalize htext : text ++ (before ++ '+' :: (after ++ rest)) = text' at h'
    cases h' with
    | single hwritten' => exact absurd htext.symm (hlast hwritten' hwritten hbefore)
    | plus hwritten' hbefore' hafter' hrest' =>
      obtain ⟨rfl, hsep⟩ := hwritten.append_inj hwritten' (endsOperand_separator hbefore _)
        (endsOperand_separator hbefore' _) htext
      obtain rfl := separator_append_inj hbefore hafter hbefore' hafter' hrest hrest' hsep
      rw [ih hrest']

theorem IsExpression.unique {text : String} {os os' : List Operand} (h : IsExpression text os)
    (h' : IsExpression text os') : os = os' := by
  have hempty : ∀ {os : List Operand}, ¬ IsSum [] os := by
    intro os hsum
    obtain ⟨c, rest, hcons, -⟩ := hsum.exists_cons
    cases hcons
  rcases h with ⟨rfl, rfl⟩ | h <;> rcases h' with ⟨htext, rfl⟩ | h'
  · rfl
  · exact absurd h' hempty
  · subst htext
    exact absurd h hempty
  · exact h.unique h'

/-! ## The expression of a template as a sum -/

/-- The operand that a reader finds where a piece was written. -/
def Piece.asRead : Piece → Operand
  | .literal run => .literal (.ofString run)
  | .parameter name _ => .named name

theorem Piece.isWrittenAs_operand {piece : Piece}
    (h : ∀ argument ∈ piece.argument?, IsIdentifier argument.name) :
    piece.asRead.IsWrittenAs piece.operand.toList := by
  cases piece with
  | literal run =>
    refine ⟨run.toList.flatMap Text.quotedChar ++ ['"'], Text.toList_quoted run, ?_⟩
    exact Text.readText_flatMap_quotedChar _ [] run.toList []
  | parameter name type => exact ⟨rfl, h _ rfl⟩

theorem isSum_expression {ps : List Piece} (hne : ps ≠ [])
    (h : ∀ argument ∈ arguments ps, IsIdentifier argument.name) :
    IsSum (expression ps).toList (ps.map Piece.asRead) := by
  induction ps with
  | nil => exact absurd rfl hne
  | cons piece rest ih =>
    have hpiece : ∀ argument ∈ piece.argument?, IsIdentifier argument.name := by
      intro argument hargument
      exact h argument (List.mem_filterMap.2 ⟨piece, List.mem_cons_self .., hargument⟩)
    have hwritten := Piece.isWrittenAs_operand hpiece
    cases rest with
    | nil => simpa [expression] using IsSum.single hwritten
    | cons next rest =>
      have hrest : IsSum (expression (next :: rest)).toList ((next :: rest).map Piece.asRead) := by
        refine ih (by simp) fun argument hargument => ?_
        obtain ⟨p, hp, hargument⟩ := List.mem_filterMap.1 hargument
        exact h argument (List.mem_filterMap.2 ⟨p, List.mem_cons_of_mem _ hp, hargument⟩)
      have hblank : ∀ c ∈ [' '], isBlank c = true := by simp [isBlank]
      have hsum := IsSum.plus hwritten hblank hblank hrest
      have htext : (expression (piece :: next :: rest)).toList =
          piece.operand.toList ++ ([' '] ++ '+' :: ([' '] ++ (expression (next :: rest)).toList)) := by
        simp [expression, String.intercalate_cons_cons]
      rw [htext]
      exact hsum

theorem isExpression_expression {ps : List Piece}
    (h : ∀ argument ∈ arguments ps, IsIdentifier argument.name) :
    IsExpression (expression ps) (ps.map Piece.asRead) := by
  by_cases hne : ps = []
  · subst hne
    exact .inl ⟨by simp [expression], rfl⟩
  · exact .inr (isSum_expression hne h)

/-! ## Values -/

/-- A value at run time. -/
inductive Value where
  | text (content : String)
  | number (value : Int)
deriving DecidableEq, Repr

/-- The value as it is concatenated: a number in decimal. -/
def Value.shown : Value → String
  | .text content => content
  | .number value => toString value

/-- The sum of two numbers, and the concatenation of any other two values. -/
def Value.add : Value → Value → Value
  | .number a, .number b => .number (a + b)
  | a, b => .text (a.shown ++ b.shown)

/-- The value of an operand where `env` gives the values of the variables. -/
def Operand.value (env : String → Value) : Operand → Value
  | .literal content => .text content.shown
  | .named name => env name

/-- The value of a sum, worked out from the left; the empty sum is the empty text. -/
def sumValue (env : String → Value) : List Operand → Value
  | [] => .text ""
  | first :: rest => rest.foldl (fun total operand => total.add (operand.value env)) (first.value env)

theorem Value.add_text (text : String) (value : Value) :
    (Value.text text).add value = .text (text ++ value.shown) := by
  cases value <;> rfl

/-- Behind a text everything is concatenated. -/
theorem foldl_add_text (env : String → Value) (operands : List Operand) (text : String) :
    operands.foldl (fun (total : Value) operand => total.add (operand.value env)) (.text text) =
      .text (text ++ String.join (operands.map fun operand => (operand.value env).shown)) := by
  induction operands generalizing text with
  | nil => simp
  | cons operand rest ih =>
    rw [List.foldl_cons, Value.add_text, ih, List.map_cons, String.join_cons, String.append_assoc]

/-- A sum that starts with a text is the concatenation of its operands. -/
theorem sumValue_of_text (env : String → Value) {operands : List Operand}
    (h : ∀ first ∈ operands.head?, ∃ text, first.value env = .text text) :
    sumValue env operands =
      .text (String.join (operands.map fun operand => (operand.value env).shown)) := by
  cases operands with
  | nil => rfl
  | cons first rest =>
    obtain ⟨text, htext⟩ := h first rfl
    rw [sumValue, htext, foldl_add_text, List.map_cons, String.join_cons, htext]
    rfl

/-- Two numbers in front of the first text are added up. -/
example : sumValue (fun _ => .number 2) [.named "a", .named "b", .literal "/c"] = .text "4/c" := by
  decide

/-! ## The value of the expression of a template -/

/-- What a piece contributes to the address: a literal run itself, a parameter its value. -/
def Piece.filled (env : String → Value) : Piece → String
  | .literal run => run
  | .parameter name _ => (env name).shown

theorem Piece.shown_value_asRead (env : String → Value) (piece : Piece) :
    (piece.asRead.value env).shown = piece.filled env := by
  cases piece with
  | literal run => exact LooseText.shown_ofString run
  | parameter name type => rfl

/-- The first operand of the expression is a text if the template starts with one, or if all
    parameters are texts. -/
theorem exists_text_of_head (env : String → Value) {ps : List Piece}
    (h : startsLiteral ps = true ∨
      ∀ argument ∈ arguments ps, ∃ text, env argument.name = .text text) :
    ∀ first ∈ (ps.map Piece.asRead).head?, ∃ text, first.value env = .text text := by
  intro first hfirst
  cases ps with
  | nil => cases hfirst
  | cons piece rest =>
    obtain rfl : piece.asRead = first := by simpa using hfirst
    cases piece with
    | literal run => exact ⟨_, rfl⟩
    | parameter name type =>
      rcases h with hliteral | htexts
      · cases hliteral
      · exact htexts ⟨name, type.getD defaultType⟩ (by simp [arguments, Piece.argument?])

/-- **The expression builds the address.** The expression of a template is read as a sum in one way,
    and its value is the template with the value of a parameter in place of each, without the
    parameter that is not closed. -/
theorem expression_evaluates {url : String} {ps : List Piece} (hpieces : pieces url = .ok ps)
    (hnames : ∀ argument ∈ arguments ps, IsIdentifier argument.name) (env : String → Value)
    (hstart : startsLiteral ps = true ∨
      ∀ argument ∈ arguments ps, ∃ text, env argument.name = .text text) :
    ∃ tail operands, Decomposes url ps tail ∧ IsExpression (expression ps) operands ∧
      (∀ other, IsExpression (expression ps) other → other = operands) ∧
      sumValue env operands = .text (String.join (ps.map (Piece.filled env))) := by
  obtain ⟨tail, htail⟩ := exists_decomposes_of_pieces_eq_ok hpieces
  have hexpression := isExpression_expression hnames
  refine ⟨tail, _, htail, hexpression, fun other hother => hother.unique hexpression, ?_⟩
  rw [sumValue_of_text env (exists_text_of_head env hstart), List.map_map]
  refine congrArg (fun texts => Value.text (String.join texts)) (List.map_congr_left ?_)
  exact fun piece _ => Piece.shown_value_asRead env piece

/-- The values of two parameters, a number and a text that looks like a part of an expression. -/
def trickyValues (name : String) : Value :=
  if name = "id" then .number (-7) else .text "\" + id"

/-- The pieces of a template whose literal text looks like a part of an expression. -/
def trickyPieces : List Piece :=
  [.literal "/say/\" + \"", .parameter "id" (some "number"), .parameter "q" none, .literal "\\c"]

theorem expression_evaluates_tricky :
    pieces "/say/\" + \"<id:number><q>\\c<y:" = .ok trickyPieces ∧
      (∀ argument ∈ arguments trickyPieces, IsIdentifier argument.name) ∧
      startsLiteral trickyPieces = true ∧
      ∃ operands, IsExpression (expression trickyPieces) operands ∧
        (∀ other, IsExpression (expression trickyPieces) other → other = operands) ∧
        sumValue trickyValues operands = .text "/say/\" + \"-7\" + id\\c" := by
  have hpieces : pieces "/say/\" + \"<id:number><q>\\c<y:" = .ok trickyPieces := rfl
  have hnames : ∀ argument ∈ arguments trickyPieces, IsIdentifier argument.name := by decide
  obtain ⟨tail, operands, -, hread, hunique, hvalue⟩ :=
    expression_evaluates hpieces hnames trickyValues (.inl rfl)
  have hfilled : String.join (trickyPieces.map (Piece.filled trickyValues)) =
      "/say/\" + \"-7\" + id\\c" := by decide
  exact ⟨hpieces, hnames, rfl, operands, hread, hunique, by rw [hvalue, hfilled]⟩

end ApiScribe.Template

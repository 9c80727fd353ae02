import ApiScribe.Text.Loose

set_option autoImplicit false

/-! # Terminal control sequences

Text that is echoed to a stream which is no terminal loses its control sequences: ESC, an opening
bracket, parameter characters from `0` to `?`, intermediate characters from the space to `/`, and
one final character from `@` to `~`. An ESC that starts no complete sequence is kept. No sequence
reaches past an unpaired half. -/

namespace ApiScribe.Text

/-- The number of characters of the control sequence at the start of a text; 0 if there is none. -/
def controlLength : List Char → Nat
  | '\x1b' :: '[' :: rest =>
    let parameters := rest.takeWhile fun c => '0' ≤ c && c ≤ '?'
    let rest := rest.drop parameters.length
    let intermediates := rest.takeWhile fun c => ' ' ≤ c && c ≤ '/'
    match rest.drop intermediates.length with
    | final :: _ => if '@' ≤ final ∧ final ≤ '~' then 3 + parameters.length + intermediates.length else 0
    | [] => 0
  | _ => 0

/-- The text without control sequences, after the first `skip` characters, which are dropped. -/
def dropControls (skip : Nat) : List Char → List Char
  | [] => []
  | c :: rest =>
    match skip with
    | skip + 1 => dropControls skip rest
    | 0 =>
      match controlLength (c :: rest) with
      | 0 => c :: dropControls 0 rest
      | length + 1 => dropControls length rest

theorem controlLength_eq_zero {c : Char} (h : c ≠ '\x1b') (rest : List Char) :
    controlLength (c :: rest) = 0 := by
  unfold controlLength
  split
  · next heq => simp_all
  · rfl

/-- Only an ESC can start anything that is dropped. -/
theorem dropControls_eq_self {text : List Char} (h : '\x1b' ∉ text) : dropControls 0 text = text := by
  induction text with
  | nil => rfl
  | cons c rest ih =>
    obtain ⟨hc, hrest⟩ := List.ne_and_not_mem_of_not_mem_cons h
    simp [dropControls, controlLength_eq_zero (Ne.symm hc), ih hrest]

/-- The text without its terminal control sequences. -/
def stripControls (text : String) : String := String.ofList (dropControls 0 text.toList)

/-! ## Texts with halves -/

/-- The symbols without control sequences, behind a stretch of characters whose last one comes
    first. -/
def dropControlsAround (stretch : List Char) : List Symbol → List Symbol
  | [] => (dropControls 0 stretch.reverse).map .char
  | .char c :: rest => dropControlsAround (c :: stretch) rest
  | .half half :: rest =>
    (dropControls 0 stretch.reverse).map .char ++ .half half :: dropControlsAround [] rest

/-- What is left of a text that is echoed. -/
def echoed (text : LooseText) : LooseText := ⟨dropControlsAround [] text.symbols⟩

theorem dropControlsAround_map (stretch characters : List Char) :
    dropControlsAround stretch (characters.map .char) =
      (dropControls 0 (stretch.reverse ++ characters)).map .char := by
  induction characters generalizing stretch with
  | nil => simp [dropControlsAround]
  | cons c rest ih => simp [dropControlsAround, ih]

theorem echoed_ofString (text : String) : echoed (.ofString text) = .ofString (stripControls text) := by
  simp [echoed, LooseText.ofString, dropControlsAround_map, stripControls]

end ApiScribe.Text

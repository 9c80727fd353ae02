import ApiScribe.Template

set_option autoImplicit false

/-! # The grammar of URL templates

A template is a sequence of pieces, no two literal runs next to each other, and possibly the start
of a parameter that is never closed. `Decomposes` says so about the text alone, without the scanner.
The scanner accepts exactly the texts that decompose, and completes exactly the pieces of the
decomposition, of which there is only one.

From the scanner to the grammar one step is enough: whatever the mode after a character makes of the
rest of the text, the mode before it makes of the character and the rest (`Completes.of_step`). In
the other direction the scanner is run over one written piece after the other (`Reads`). -/

namespace ApiScribe.Template

/-! ## The grammar -/

/-- A character of a literal run. -/
def isRunChar (c : Char) : Bool := c ≠ '<' && c ≠ '>'

/-- A character of a name or a type. -/
def isWordChar (c : Char) : Bool := c ≠ '<' && c ≠ '>' && c ≠ ':'

/-- The piece as it stands in a template. -/
def Piece.written : Piece → String
  | .literal run => run
  | .parameter name none => "<" ++ name ++ ">"
  | .parameter name (some type) => "<" ++ name ++ ":" ++ type ++ ">"

/-- Literal runs, names and types are not empty and hold no character that would end them. -/
def Piece.WellFormed : Piece → Prop
  | .literal run => run ≠ "" ∧ ∀ c ∈ run.toList, isRunChar c = true
  | .parameter name type =>
    (name ≠ "" ∧ ∀ c ∈ name.toList, isWordChar c = true) ∧
      ∀ t ∈ type, t ≠ "" ∧ ∀ c ∈ t.toList, isWordChar c = true

/-- Whether the first piece is a literal run. -/
def startsLiteral : List Piece → Bool
  | .literal _ :: _ => true
  | _ => false

/-- No two literal runs stand next to each other. -/
def Separated : List Piece → Prop
  | [] => True
  | .literal _ :: rest => startsLiteral rest = false ∧ Separated rest
  | .parameter _ _ :: rest => Separated rest

/-- The text of a parameter that is opened and not closed. -/
def unclosed : Option String → String
  | none => ""
  | some rest => "<" ++ rest

/-- What can stand behind the opening of a parameter that is not closed. -/
def IsOpenEnd (rest : String) : Prop :=
  '<' ∉ rest.toList ∧ '>' ∉ rest.toList ∧ rest.toList.count ':' ≤ 1

/-- The template consists of the pieces, and of an unclosed parameter if there is one. -/
structure Decomposes (url : String) (pieces : List Piece) (tail : Option String) : Prop where
  written : url = String.join (pieces.map Piece.written) ++ unclosed tail
  wellFormed : ∀ piece ∈ pieces, piece.WellFormed
  separated : Separated pieces
  openEnd : ∀ rest ∈ tail, IsOpenEnd rest

/-! ## Modes and the text that they have passed -/

/-- The text since the last completed piece. -/
def Mode.pending : Mode → String
  | .literal run => run
  | .naming name => "<" ++ name
  | .typing name type => "<" ++ name ++ ":" ++ type

/-- What a mode has gathered holds no character that would have ended it. -/
def Mode.WellFormed : Mode → Prop
  | .literal run => ∀ c ∈ run.toList, isRunChar c = true
  | .naming name => ∀ c ∈ name.toList, isWordChar c = true
  | .typing name type =>
    (∀ c ∈ name.toList, isWordChar c = true) ∧ ∀ c ∈ type.toList, isWordChar c = true

/-- Whether a parameter is open. -/
def Mode.isOpen : Mode → Bool
  | .literal _ => false
  | .naming _ => true
  | .typing _ _ => true

/-- The unclosed parameter that the end of the template leaves. -/
def Mode.leftover : Mode → Option String
  | .literal _ => none
  | .naming name => some name
  | .typing name type => some (name ++ ":" ++ type)

/-- A text that the scanner meets in a mode decomposes into the pieces and the unclosed parameter,
    where what the mode has gathered belongs to the first of them. -/
structure Completes (mode : Mode) (text : List Char) (pieces : List Piece) (tail : Option String) :
    Prop where
  written : mode.pending.toList ++ text =
    pieces.flatMap (fun piece => piece.written.toList) ++ (unclosed tail).toList
  wellFormed : ∀ piece ∈ pieces, piece.WellFormed
  separated : Separated pieces
  opened : mode.isOpen = true → startsLiteral pieces = false
  openEnd : ∀ rest ∈ tail, IsOpenEnd rest

/-! ## From the scanner to the grammar -/

theorem isOpenEnd_of_isWordChar {name : String} (h : ∀ c ∈ name.toList, isWordChar c = true) :
    IsOpenEnd name ∧ name.toList.count ':' = 0 := by
  have hcolon : name.toList.count ':' = 0 :=
    List.count_eq_zero.2 fun hc => absurd (h _ hc) (by decide)
  exact ⟨⟨fun hc => absurd (h _ hc) (by decide), fun hc => absurd (h _ hc) (by decide),
    by omega⟩, hcolon⟩

theorem isOpenEnd_typed {name type : String} (hname : ∀ c ∈ name.toList, isWordChar c = true)
    (htype : ∀ c ∈ type.toList, isWordChar c = true) : IsOpenEnd (name ++ ":" ++ type) := by
  obtain ⟨⟨hl, hr, -⟩, hcount⟩ := isOpenEnd_of_isWordChar hname
  obtain ⟨⟨hl', hr', -⟩, hcount'⟩ := isOpenEnd_of_isWordChar htype
  refine ⟨?_, ?_, ?_⟩
  · simp [hl, hl']
  · simp [hr, hr']
  · simp [hcount, hcount']

/-- At the end of the template the mode gives its last piece or leaves an unclosed parameter. -/
theorem Completes.of_end {mode : Mode} (hmode : mode.WellFormed) :
    Completes mode [] mode.finish mode.leftover := by
  cases mode with
  | literal run =>
    by_cases hrun : run = ""
    · subst hrun
      exact ⟨by simp [Mode.pending, Mode.finish, Mode.leftover, literalPiece, unclosed],
        by simp [Mode.finish, literalPiece], trivial, fun h => by simp [Mode.isOpen] at h,
        by simp [Mode.leftover]⟩
    · have hpiece : literalPiece run = [.literal run] := by simp [literalPiece, hrun]
      exact ⟨by simp [Mode.pending, Mode.finish, Mode.leftover, hpiece, Piece.written, unclosed],
        by simpa [Mode.finish, hpiece, Piece.WellFormed, hrun, Mode.WellFormed] using hmode,
        by simp [Mode.finish, hpiece, Separated, startsLiteral], fun h => by simp [Mode.isOpen] at h,
        by simp [Mode.leftover]⟩
  | naming name =>
    exact ⟨by simp [Mode.pending, Mode.finish, Mode.leftover, unclosed], by simp [Mode.finish],
      trivial, fun _ => rfl, by simpa [Mode.leftover] using (isOpenEnd_of_isWordChar hmode).1⟩
  | typing name type =>
    exact ⟨by simp [Mode.pending, Mode.finish, Mode.leftover, unclosed], by simp [Mode.finish],
      trivial, fun _ => rfl, by simpa [Mode.leftover] using isOpenEnd_typed hmode.1 hmode.2⟩

/-- A character that is only gathered moves from the text to what the mode has gathered. -/
theorem Completes.of_gathered {mode next : Mode} {c : Char} {text : List Char}
    {pieces : List Piece} {tail : Option String} (h : Completes next text pieces tail)
    (hpending : next.pending.toList = mode.pending.toList ++ [c])
    (hopen : next.isOpen = mode.isOpen) : Completes mode (c :: text) pieces tail := by
  refine ⟨?_, h.wellFormed, h.separated, fun hm => h.opened (hopen.trans hm), h.openEnd⟩
  have hwritten := h.written
  rw [hpending, List.append_assoc] at hwritten
  exact hwritten

/-- A parameter that is closed comes before whatever follows it. -/
theorem Completes.of_closed {mode : Mode} {piece : Piece} {text : List Char} {pieces : List Piece}
    {tail : Option String} (h : Completes (.literal "") text pieces tail)
    (hwritten : mode.pending.toList ++ ['>'] = piece.written.toList) (hpiece : piece.WellFormed)
    (hparameter : startsLiteral [piece] = false) :
    Completes mode ('>' :: text) (piece :: pieces) tail := by
  refine ⟨?_, ?_, ?_, fun _ => ?_, h.openEnd⟩
  · have hrest := h.written
    simp only [Mode.pending, String.toList_empty, List.nil_append] at hrest
    rw [List.flatMap_cons, ← hwritten, hrest]
    simp
  · intro p hp
    rcases List.mem_cons.1 hp with rfl | hp
    · exact hpiece
    · exact h.wellFormed p hp
  · cases piece with
    | literal run => simp [startsLiteral] at hparameter
    | parameter name type => exact h.separated
  · cases piece with
    | literal run => simp [startsLiteral] at hparameter
    | parameter name type => rfl

/-- A literal run that a parameter ends comes before that parameter. -/
theorem Completes.of_opened {run : String} (hrun : ∀ c ∈ run.toList, isRunChar c = true)
    {text : List Char} {pieces : List Piece} {tail : Option String}
    (h : Completes (.naming "") text pieces tail) :
    Completes (.literal run) ('<' :: text) (literalPiece run ++ pieces) tail := by
  have hwritten : '<' :: text =
      pieces.flatMap (fun piece => piece.written.toList) ++ (unclosed tail).toList := by
    simpa [Mode.pending] using h.written
  by_cases hempty : run = ""
  · subst hempty
    exact ⟨by simpa [Mode.pending, literalPiece] using hwritten, h.wellFormed, h.separated,
      fun hopen => by simp [Mode.isOpen] at hopen, h.openEnd⟩
  · have hpiece : literalPiece run = [.literal run] := by simp [literalPiece, hempty]
    rw [hpiece]
    refine ⟨by simp [Mode.pending, Piece.written, hwritten], ?_, ⟨h.opened rfl, h.separated⟩,
      fun hopen => by simp [Mode.isOpen] at hopen, h.openEnd⟩
    intro p hp
    rcases List.mem_cons.1 hp with rfl | hp
    · exact ⟨hempty, hrun⟩
    · exact h.wellFormed p hp

theorem forall_mem_push {p : Char → Bool} {s : String} {c : Char}
    (hs : ∀ x ∈ s.toList, p x = true) (hc : p c = true) : ∀ x ∈ (s.push c).toList, p x = true := by
  intro x hx
  rw [String.toList_push, List.mem_append, List.mem_singleton] at hx
  rcases hx with hx | rfl
  · exact hs x hx
  · exact hc

/-- **One step.** What the mode after a character makes of the rest of the text, the mode before it
    makes of the character and the rest, behind the pieces that the character completes. -/
theorem Completes.of_step {mode next : Mode} {c : Char} {out : List Piece}
    (hmode : mode.WellFormed) (hstep : mode.step c = some (out, next)) :
    next.WellFormed ∧ ∀ {text : List Char} {pieces : List Piece} {tail : Option String},
      Completes next text pieces tail → Completes mode (c :: text) (out ++ pieces) tail := by
  unfold Mode.step at hstep
  split at hstep
  case h_1 run =>
    split at hstep
    · next hc =>
      obtain ⟨rfl, rfl⟩ := Prod.mk.inj (Option.some.inj hstep)
      subst hc
      exact ⟨by simp [Mode.WellFormed], fun h => .of_opened hmode h⟩
    split at hstep
    · simp at hstep
    · next hl hr =>
      obtain ⟨rfl, rfl⟩ := Prod.mk.inj (Option.some.inj hstep)
      exact ⟨forall_mem_push hmode (by simp [isRunChar, hl, hr]),
        fun h => h.of_gathered (by simp [Mode.pending]) rfl⟩
  case h_2 name =>
    split at hstep
    · simp at hstep
    next hl =>
    split at hstep
    · next hc =>
      split at hstep
      · simp at hstep
      · next hname =>
        obtain ⟨rfl, rfl⟩ := Prod.mk.inj (Option.some.inj hstep)
        subst hc
        exact ⟨by simp [Mode.WellFormed], fun h => h.of_closed (by simp [Mode.pending, Piece.written])
          ⟨⟨by simpa using hname, hmode⟩, by simp⟩ rfl⟩
    next hr =>
    split at hstep
    · next hc =>
      obtain ⟨rfl, rfl⟩ := Prod.mk.inj (Option.some.inj hstep)
      subst hc
      exact ⟨⟨hmode, by simp⟩, fun h => h.of_gathered (by simp [Mode.pending]) rfl⟩
    · next hcolon =>
      obtain ⟨rfl, rfl⟩ := Prod.mk.inj (Option.some.inj hstep)
      exact ⟨forall_mem_push hmode (by simp [isWordChar, hl, hr, hcolon]),
        fun h => h.of_gathered (by simp [Mode.pending]) rfl⟩
  case h_3 name type =>
    obtain ⟨hname, htype⟩ := hmode
    split at hstep
    · simp at hstep
    next hl =>
    split at hstep
    · next hc =>
      split at hstep
      · simp at hstep
      · next hempty =>
        obtain ⟨rfl, rfl⟩ := Prod.mk.inj (Option.some.inj hstep)
        subst hc
        simp only [Bool.or_eq_true, String.isEmpty_iff, not_or] at hempty
        exact ⟨by simp [Mode.WellFormed], fun h => h.of_closed (by simp [Mode.pending, Piece.written])
          ⟨⟨hempty.1, hname⟩, by simpa using ⟨hempty.2, htype⟩⟩ rfl⟩
    · next hr =>
      obtain ⟨rfl, rfl⟩ := Prod.mk.inj (Option.some.inj hstep)
      rw [not_or] at hl
      exact ⟨⟨hname, forall_mem_push htype (by simp [isWordChar, hl.1, hl.2, hr])⟩,
        fun h => h.of_gathered (by simp [Mode.pending]) rfl⟩

/-- **The whole scan.** What the scanner completes, and what it has left at the end, is what the
    text decomposes into. -/
theorem Completes.of_scan {mode last : Mode} {position : Nat} {text : List Char}
    {done : List Piece} (hmode : mode.WellFormed)
    (h : scan mode position text = .ok (done, last)) :
    Completes mode text (done ++ last.finish) last.leftover := by
  induction text generalizing mode position done with
  | nil =>
    obtain ⟨rfl, rfl⟩ := Prod.mk.inj (Except.ok.inj h)
    exact .of_end hmode
  | cons c rest ih =>
    rw [scan] at h
    split at h
    · simp at h
    next out next hstep =>
    split at h
    · simp at h
    next more last' hscan =>
    obtain ⟨rfl, rfl⟩ := Prod.mk.inj (Except.ok.inj h)
    obtain ⟨hnext, hcompletes⟩ := Completes.of_step hmode hstep
    rw [List.append_assoc]
    exact hcompletes (ih hnext hscan)

/-! ## From the grammar to the scanner -/

/-- From the first mode the text is scanned, wherever it stands, with the pieces completed and the
    last mode reached. -/
def Reads (mode : Mode) (text : List Char) (done : List Piece) (last : Mode) : Prop :=
  ∀ position, scan mode position text = .ok (done, last)

theorem Reads.nil (mode : Mode) : Reads mode [] [] mode := fun _ => rfl

theorem Reads.append {first second last : Mode} {a b : List Char} {done more : List Piece}
    (ha : Reads first a done second) (hb : Reads second b more last) :
    Reads first (a ++ b) (done ++ more) last := by
  intro position
  rw [scan_append, ha position]
  simp only [hb (position + a.length)]

theorem Reads.of_step {mode next : Mode} {c : Char} {out : List Piece}
    (h : mode.step c = some (out, next)) : Reads mode [c] out next := by
  intro position
  simp [scan, h]

theorem ofList_cons_eq_push_append (s : String) (c : Char) (text : List Char) :
    s ++ String.ofList (c :: text) = s.push c ++ String.ofList text := by
  simp [← String.toList_inj]

/-- Characters that a mode gathers are scanned without completing a piece. The mode is given by what
    it has gathered. -/
theorem reads_gathered {mode : String → Mode} {p : Char → Bool}
    (hstep : ∀ (s : String) (c : Char), p c = true → (mode s).step c = some ([], mode (s.push c)))
    (s : String) {text : List Char} (htext : ∀ c ∈ text, p c = true) :
    Reads (mode s) text [] (mode (s ++ String.ofList text)) := by
  induction text generalizing s with
  | nil => simpa using Reads.nil (mode s)
  | cons c text ih =>
    rw [ofList_cons_eq_push_append]
    exact (Reads.of_step (hstep s c (htext c (List.mem_cons_self ..)))).append
      (ih (s.push c) fun x hx => htext x (List.mem_cons_of_mem _ hx))

theorem reads_run (run : String) {text : String} (h : ∀ c ∈ text.toList, isRunChar c = true) :
    Reads (.literal run) text.toList [] (.literal (run ++ text)) := by
  have hstep : ∀ (s : String) (c : Char), isRunChar c = true →
      (Mode.literal s).step c = some ([], .literal (s.push c)) := by
    intro s c hc
    simp only [isRunChar, Bool.and_eq_true, decide_eq_true_eq] at hc
    simp [Mode.step, hc.1, hc.2]
  simpa using reads_gathered hstep run h

theorem reads_name {name : String} (h : ∀ c ∈ name.toList, isWordChar c = true) :
    Reads (.naming "") name.toList [] (.naming name) := by
  have hstep : ∀ (s : String) (c : Char), isWordChar c = true →
      (Mode.naming s).step c = some ([], .naming (s.push c)) := by
    intro s c hc
    simp only [isWordChar, Bool.and_eq_true, decide_eq_true_eq] at hc
    simp [Mode.step, hc.1, hc.2]
  simpa using reads_gathered hstep "" h

theorem reads_type (name type : String) (h : ∀ c ∈ type.toList, isWordChar c = true) :
    Reads (.typing name "") type.toList [] (.typing name type) := by
  have hstep : ∀ (s : String) (c : Char), isWordChar c = true →
      (Mode.typing name s).step c = some ([], .typing name (s.push c)) := by
    intro s c hc
    simp only [isWordChar, Bool.and_eq_true, decide_eq_true_eq] at hc
    simp [Mode.step, hc.1, hc.2]
  simpa using reads_gathered hstep "" h

/-- A parameter is opened behind the literal run in front of it. -/
theorem reads_opening (run : String) :
    Reads (.literal run) ['<'] (literalPiece run) (.naming "") :=
  Reads.of_step (by simp [Mode.step])

/-- A written parameter is scanned to its piece. -/
theorem reads_parameter (run : String) {name : String} {type : Option String}
    (h : (Piece.parameter name type).WellFormed) :
    Reads (.literal run) (Piece.parameter name type).written.toList
      (literalPiece run ++ [.parameter name type]) (.literal "") := by
  obtain ⟨⟨hne, hname⟩, htype⟩ := h
  have hopen := (reads_opening run).append (reads_name hname)
  cases type with
  | none =>
    have hclose : (Mode.naming name).step '>' = some ([.parameter name none], .literal "") := by
      simp [Mode.step, hne]
    simpa [Piece.written] using hopen.append (Reads.of_step hclose)
  | some type =>
    obtain ⟨htne, htype⟩ := htype type rfl
    have hcolon : (Mode.naming name).step ':' = some ([], .typing name "") := by simp [Mode.step]
    have hclose : (Mode.typing name type).step '>' =
        some ([.parameter name (some type)], .literal "") := by simp [Mode.step, hne, htne]
    simpa [Piece.written] using ((hopen.append (Reads.of_step hcolon)).append
      (reads_type name type htype)).append (Reads.of_step hclose)

/-- Written pieces are scanned to the pieces, where the last literal run is not yet completed. -/
theorem reads_pieces {pieces : List Piece} (hpieces : ∀ piece ∈ pieces, piece.WellFormed)
    (hseparated : Separated pieces) {run : String}
    (hrun : run ≠ "" → startsLiteral pieces = false) :
    ∃ done last, Reads (.literal run) (pieces.flatMap fun piece => piece.written.toList) done
      (.literal last) ∧ done ++ literalPiece last = literalPiece run ++ pieces := by
  induction pieces generalizing run with
  | nil => exact ⟨[], run, Reads.nil _, by simp⟩
  | cons piece pieces ih =>
    have hpiece := hpieces piece (List.mem_cons_self ..)
    have hrest := fun p hp => hpieces p (List.mem_cons_of_mem piece hp)
    rw [List.flatMap_cons]
    cases piece with
    | literal text =>
      obtain ⟨hne, htext⟩ := hpiece
      have hempty : run = "" := by
        by_cases h : run = ""
        · exact h
        · exact absurd (hrun h) (by simp [startsLiteral])
      subst hempty
      obtain ⟨done, last, hreads, hdone⟩ := ih hrest hseparated.2 (fun _ => hseparated.1)
      have hrun := reads_run "" htext
      rw [String.empty_append] at hrun
      refine ⟨done, last, hrun.append hreads, ?_⟩
      rw [hdone]
      simp [literalPiece, hne]
    | parameter name type =>
      obtain ⟨done, last, hreads, hdone⟩ := ih hrest hseparated (fun h => absurd rfl h)
      refine ⟨literalPiece run ++ [.parameter name type] ++ done, last,
        (reads_parameter run hpiece).append hreads, ?_⟩
      rw [List.append_assoc, hdone]
      simp [literalPiece]

/-- An unclosed parameter is scanned to the end without completing a piece of its own. -/
theorem reads_unclosed (run : String) {rest : String} (h : IsOpenEnd rest) :
    ∃ last, Reads (.literal run) (unclosed (some rest)).toList (literalPiece run) last ∧
      last.finish = [] := by
  obtain ⟨hl, hr, hcount⟩ := h
  have hword : ∀ {text : List Char}, (∀ c ∈ text, c ∈ rest.toList) → text.count ':' = 0 →
      ∀ c ∈ text, isWordChar c = true := by
    intro text hsub hzero c hc
    have hcolon : c ≠ ':' := fun he => List.count_eq_zero.1 hzero (he ▸ hc)
    have hl' : c ≠ '<' := fun he => hl (he ▸ hsub c hc)
    have hr' : c ≠ '>' := fun he => hr (he ▸ hsub c hc)
    simp [isWordChar, hcolon, hl', hr']
  have hopen : (unclosed (some rest)).toList = '<' :: rest.toList := by simp [unclosed]
  rw [hopen]
  by_cases hcolon : ':' ∈ rest.toList
  · obtain ⟨a, b, hab⟩ := List.append_of_mem hcolon
    have hcounts : a.count ':' + b.count ':' = 0 := by
      rw [hab, List.count_append, List.count_cons_self] at hcount
      omega
    have hname := hword (fun c hc => hab ▸ List.mem_append_left _ hc) (show a.count ':' = 0 by omega)
    have htype := hword (fun c hc => hab ▸ List.mem_append_right _ (List.mem_cons_of_mem _ hc))
      (show b.count ':' = 0 by omega)
    refine ⟨.typing (.ofList a) (.ofList b), ?_, rfl⟩
    have hreads := (((reads_opening run).append (reads_name (by simpa using hname))).append
      (Reads.of_step (show (Mode.naming (.ofList a)).step ':' = some ([], .typing (.ofList a) "") by
        simp [Mode.step]))).append (reads_type (.ofList a) (.ofList b) (by simpa using htype))
    rw [hab]
    simpa using hreads
  · have hname := hword (fun c hc => hc) (List.count_eq_zero.2 hcolon)
    refine ⟨.naming rest, ?_, rfl⟩
    simpa using (reads_opening run).append (reads_name hname)

/-! ## Both directions -/

/-- The pieces of a decomposition are the pieces that the scanner completes. -/
theorem Decomposes.pieces_eq_ok {url : String} {ps : List Piece} {tail : Option String}
    (h : Decomposes url ps tail) : pieces url = .ok ps := by
  obtain ⟨done, run, hreads, hdone⟩ := reads_pieces h.wellFormed h.separated
    (show "" ≠ "" → startsLiteral ps = false from fun hne => absurd rfl hne)
  have hdone : done ++ literalPiece run = ps := by simpa [literalPiece] using hdone
  have hurl : url.toList =
      ps.flatMap (fun piece => piece.written.toList) ++ (unclosed tail).toList := by
    simp [h.written, List.flatMap_map]
  cases tail with
  | none =>
    have hscan := hreads 0
    simp only [unclosed, String.toList_empty, List.append_nil] at hurl
    rw [pieces, hurl, hscan]
    simp [Mode.finish, hdone]
  | some rest =>
    obtain ⟨last, htail, hfinish⟩ := reads_unclosed run (h.openEnd rest rfl)
    have hscan := (hreads.append htail) 0
    rw [pieces, hurl, hscan]
    simp [hfinish, hdone]

/-- A template that is scanned to its end decomposes into the pieces completed. -/
theorem exists_decomposes_of_pieces_eq_ok {url : String} {ps : List Piece}
    (h : pieces url = .ok ps) : ∃ tail, Decomposes url ps tail := by
  rw [pieces] at h
  split at h
  · simp at h
  next done last hscan =>
  have hcompletes := Completes.of_scan (by simp [Mode.WellFormed]) hscan
  rw [Except.ok.inj h] at hcompletes
  refine ⟨last.leftover, ?_, hcompletes.wellFormed, hcompletes.separated, hcompletes.openEnd⟩
  have hwritten := hcompletes.written
  rw [← String.toList_inj]
  simpa [Mode.pending, List.flatMap_map] using hwritten

theorem unclosed_injective {a b : Option String} (h : unclosed a = unclosed b) : a = b := by
  cases a <;> cases b <;> simp_all [unclosed, ← String.toList_inj]

/-- A text has one decomposition. -/
theorem Decomposes.unique {url : String} {ps qs : List Piece} {tail tail' : Option String}
    (h : Decomposes url ps tail) (h' : Decomposes url qs tail') : ps = qs ∧ tail = tail' := by
  have heq : ps = qs := Except.ok.inj (h.pieces_eq_ok.symm.trans h'.pieces_eq_ok)
  subst heq
  have hwritten := h.written.symm.trans h'.written
  refine ⟨rfl, unclosed_injective ?_⟩
  rw [← String.toList_inj] at hwritten ⊢
  simpa using hwritten

/-- **Templates are read as the grammar says.** A template is accepted exactly if it decomposes; the
    decomposition is unique, and the expression and the arguments are those of its pieces: literal
    runs quoted and parameters by name, added up in order, and one argument for each parameter. Any
    other template is refused. -/
theorem pieces_iff_decomposes (url : String) :
    ((∃ ps, pieces url = .ok ps) ↔ ∃ ps tail, Decomposes url ps tail) ∧
    (∀ ps tail qs tail', Decomposes url ps tail → Decomposes url qs tail' →
      ps = qs ∧ tail = tail') ∧
    (∀ ps tail, Decomposes url ps tail →
      pieces url = .ok ps ∧
      expression ps = " + ".intercalate (ps.map fun
        | .literal run => Text.quoted run
        | .parameter name _ => name) ∧
      arguments ps = ps.filterMap fun
        | .literal _ => none
        | .parameter name type => some ⟨name, type.getD "any"⟩) ∧
    ((¬∃ ps tail, Decomposes url ps tail) → ∃ e, pieces url = .error e) := by
  have hiff : (∃ ps, pieces url = .ok ps) ↔ ∃ ps tail, Decomposes url ps tail :=
    ⟨fun ⟨ps, h⟩ => ⟨ps, exists_decomposes_of_pieces_eq_ok h⟩,
      fun ⟨ps, _, h⟩ => ⟨ps, h.pieces_eq_ok⟩⟩
  refine ⟨hiff, fun _ _ _ _ h h' => h.unique h', fun ps tail h => ?_, fun hnone => ?_⟩
  · exact ⟨h.pieces_eq_ok, rfl, rfl⟩
  · cases hpieces : pieces url with
    | error e => exact ⟨e, rfl⟩
    | ok ps => exact absurd (hiff.1 ⟨ps, hpieces⟩) hnone

/-- A decomposed template: two literal runs, a parameter with a type, one without, and an unclosed
    one. -/
example : Decomposes "/a:b/<id:number><x>/c<y:" [.literal "/a:b/", .parameter "id" (some "number"),
    .parameter "x" none, .literal "/c"] (some "y:") :=
  ⟨by decide, by simp [Piece.WellFormed, isRunChar, isWordChar], by simp [Separated, startsLiteral],
    by simp [IsOpenEnd]⟩

end ApiScribe.Template

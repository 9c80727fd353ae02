import ApiScribe.Proofs.Template.Grammar

set_option autoImplicit false

/-! # Templates made of two parts

When no parameter is open at the end of a template, a text behind it is scanned as it would be on
its own: the same pieces, the same error at a place that lies further on (`pieces_append`). One
thing is carried over from the first part. It may end in a literal run that is not yet completed,
and if the second part starts with literal text, the two make one piece (`leadWith`).

That the run is the only thing carried over is seen on the scanner: the characters gathered before a
text are put in front of its first literal and change nothing else (`piecesFrom_gathered`). -/

namespace ApiScribe.Template

/-! ## Scanning from within a template -/

/-- The pieces of a text that is scanned from a mode, at a position in a template. -/
def piecesFrom (mode : Mode) (position : Nat) (text : List Char) :
    Except UnexpectedToken (List Piece) :=
  match scan mode position text with
  | .error e => .error e
  | .ok (done, last) => .ok (done ++ last.finish)

theorem piecesFrom_nil (mode : Mode) (position : Nat) :
    piecesFrom mode position [] = .ok mode.finish := rfl

/-- The first character, and then the rest from the mode behind it. -/
theorem piecesFrom_cons (mode : Mode) (position : Nat) (c : Char) (rest : List Char) :
    piecesFrom mode position (c :: rest) =
      match mode.step c with
      | none => .error ⟨c.toString, some position⟩
      | some (out, next) => (piecesFrom next (position + 1) rest).map (out ++ ·) := by
  unfold piecesFrom
  rw [scan]
  cases mode.step c with
  | none => rfl
  | some result =>
    obtain ⟨out, next⟩ := result
    dsimp only
    cases scan next (position + 1) rest <;> simp [Except.map]

/-- A token that is met `n` characters later. -/
def UnexpectedToken.later (e : UnexpectedToken) (n : Nat) : UnexpectedToken :=
  { e with position := e.position.map (n + ·) }

/-- The position of a text plays no part but in errors. -/
theorem piecesFrom_later (mode : Mode) (n position : Nat) (text : List Char) :
    piecesFrom mode (n + position) text =
      (piecesFrom mode position text).mapError (·.later n) := by
  induction text generalizing mode position with
  | nil => rfl
  | cons c rest ih =>
    rw [piecesFrom_cons, piecesFrom_cons]
    cases mode.step c with
    | none => rfl
    | some result =>
      rw [Nat.add_assoc]
      dsimp only
      rw [ih]
      cases piecesFrom result.2 (position + 1) rest <;> rfl

/-! ## Literal text in front -/

/-- The pieces behind literal text: it is put in front of a literal at their start, and is a literal
    of its own otherwise. -/
def leadWith (run : String) : List Piece → List Piece
  | .literal text :: rest => .literal (run ++ text) :: rest
  | ps => literalPiece run ++ ps

theorem leadWith_of_startsLiteral_eq_false {ps : List Piece} (h : startsLiteral ps = false)
    (run : String) : leadWith run ps = literalPiece run ++ ps := by
  unfold leadWith
  split
  · simp [startsLiteral] at h
  · rfl

theorem leadWith_empty (ps : List Piece) : leadWith "" ps = ps := by
  unfold leadWith
  split <;> simp [literalPiece]

/-- Literal text starts with a literal, if it is not empty. -/
theorem exists_literal_of_leadWith {run : String} (h : run ≠ "") (ps : List Piece) :
    ∃ text rest, leadWith run ps = .literal text :: rest := by
  unfold leadWith
  split
  · exact ⟨_, _, rfl⟩
  · exact ⟨run, ps, by simp [literalPiece, h]⟩

/-- Behind the opening of a parameter the first piece is no literal. -/
theorem startsLiteral_of_naming {position : Nat} {text : List Char} {ps : List Piece}
    (h : piecesFrom (.naming "") position text = .ok ps) : startsLiteral ps = false := by
  unfold piecesFrom at h
  split at h
  · cases h
  · next done last hscan =>
    obtain rfl := Except.ok.inj h
    have hmode : (Mode.naming "").WellFormed := by simp [Mode.WellFormed]
    exact (Completes.of_scan hmode hscan).opened rfl

/-- **Gathered text.** What has been gathered of a literal run before a text is put in front of the
    pieces of the text, and changes nothing else. -/
theorem piecesFrom_gathered (run more : String) (position : Nat) (text : List Char) :
    piecesFrom (.literal (run ++ more)) position text =
      (piecesFrom (.literal more) position text).map (leadWith run) := by
  induction text generalizing more position with
  | nil =>
    by_cases hmore : more = ""
    · simp [piecesFrom_nil, Mode.finish, hmore, literalPiece, leadWith, Except.map]
    · simp [piecesFrom_nil, Mode.finish, hmore, literalPiece, leadWith, Except.map]
  | cons c rest ih =>
    rw [piecesFrom_cons, piecesFrom_cons]
    by_cases hl : c = '<'
    · have hopening : ∀ s : String,
          (Mode.literal s).step c = some (literalPiece s, .naming "") := by
        intro s
        simp [Mode.step, hl]
      rw [hopening, hopening]
      cases hrest : piecesFrom (.naming "") (position + 1) rest with
      | error e => simp [hrest, Except.map]
      | ok ps =>
        have hps := startsLiteral_of_naming hrest
        by_cases hmore : more = ""
        · simp [hrest, Except.map, hmore, literalPiece, leadWith_of_startsLiteral_eq_false hps]
        · simp [hrest, Except.map, hmore, literalPiece, leadWith]
    by_cases hr : c = '>'
    · have hrefused : ∀ s : String, (Mode.literal s).step c = none := by
        intro s
        simp [Mode.step, hr]
      rw [hrefused, hrefused]
      rfl
    have hgathers : ∀ s : String, (Mode.literal s).step c = some ([], .literal (s.push c)) := by
      intro s
      simp [Mode.step, hl, hr]
    have hpush : (run ++ more).push c = run ++ more.push c := by simp [← String.toList_inj]
    have hid : ∀ r : Except UnexpectedToken (List Piece), r.map (fun ps => [] ++ ps) = r := by
      intro r
      cases r <;> rfl
    rw [hgathers, hgathers]
    simp only [hid, hpush]
    exact ih (more.push c) (position + 1)

/-- **Two parts.** Behind a text that leaves a literal run, a text has the pieces and the error that
    it has on its own, with the run in front of the pieces and the error further on. -/
theorem pieces_append {u : String} {done : List Piece} {run : String}
    (hu : scan (.literal "") 0 u.toList = .ok (done, .literal run)) (v : String) :
    pieces (u ++ v) =
      match pieces v with
      | .error e => .error (e.later u.length)
      | .ok qs => .ok (done ++ leadWith run qs) := by
  have hrest : piecesFrom (.literal run) u.length v.toList =
      ((pieces v).mapError (·.later u.length)).map (leadWith run) := by
    have hlater := piecesFrom_later (.literal run) u.length 0 v.toList
    have hgathered := piecesFrom_gathered run "" 0 v.toList
    rw [Nat.add_zero] at hlater
    rw [String.append_empty] at hgathered
    rw [hlater, hgathered, show pieces v = piecesFrom (.literal "") 0 v.toList from rfl]
    cases piecesFrom (.literal "") 0 v.toList <;> rfl
  have hwhole : pieces (u ++ v) = (piecesFrom (.literal run) u.length v.toList).map (done ++ ·) := by
    unfold pieces piecesFrom
    rw [String.toList_append, scan_append, hu, String.length_toList, Nat.zero_add]
    dsimp only
    cases scan (.literal run) u.length v.toList <;> simp [Except.map]
  rw [hwhole, hrest]
  cases pieces v <;> rfl

/-! ## Templates without an open parameter -/

theorem count_opening_eq_count_closing {piece : Piece} (h : piece.WellFormed) :
    piece.written.toList.count '<' = piece.written.toList.count '>' := by
  have hzero : ∀ {text : List Char} {p : Char → Bool}, (∀ c ∈ text, p c = true) →
      p '<' = false → p '>' = false → text.count '<' = 0 ∧ text.count '>' = 0 := by
    intro text p htext hl hr
    exact ⟨List.count_eq_zero.2 fun hc => by simp [htext _ hc] at hl,
      List.count_eq_zero.2 fun hc => by simp [htext _ hc] at hr⟩
  cases piece with
  | literal run =>
    obtain ⟨hl, hr⟩ := hzero h.2 (by decide) (by decide)
    exact hl.trans hr.symm
  | parameter name type =>
    obtain ⟨⟨-, hname⟩, htype⟩ := h
    obtain ⟨hl, hr⟩ := hzero hname (by decide) (by decide)
    cases type with
    | none => simp [Piece.written, hl, hr]
    | some type =>
      obtain ⟨hl', hr'⟩ := hzero (htype type rfl).2 (by decide) (by decide)
      simp [Piece.written, hl, hr, hl', hr']

theorem count_pieces {ps : List Piece} (h : ∀ piece ∈ ps, piece.WellFormed) :
    (ps.flatMap fun piece => piece.written.toList).count '<' =
      (ps.flatMap fun piece => piece.written.toList).count '>' := by
  induction ps with
  | nil => rfl
  | cons piece ps ih =>
    rw [List.flatMap_cons, List.count_append, List.count_append,
      count_opening_eq_count_closing (h piece (List.mem_cons_self ..)),
      ih fun p hp => h p (List.mem_cons_of_mem _ hp)]

/-- Pieces followed by a parameter that is not closed have one opening more than closings. -/
theorem eq_none_of_closed {ps : List Piece} {tail : Option String} {text : List Char}
    (hps : ∀ piece ∈ ps, piece.WellFormed) (htail : ∀ rest ∈ tail, IsOpenEnd rest)
    (hwritten : text = (ps.flatMap fun piece => piece.written.toList) ++ (unclosed tail).toList)
    (hclosed : text.count '<' = text.count '>') : tail = none := by
  cases tail with
  | none => rfl
  | some rest =>
    obtain ⟨hl, hr, -⟩ := htail rest rfl
    have hopening : (unclosed (some rest)).toList.count '<' = 1 := by
      simp [unclosed, List.count_eq_zero.2 hl]
    have hclosing : (unclosed (some rest)).toList.count '>' = 0 := by
      simp [unclosed, List.count_eq_zero.2 hr]
    rw [hwritten, List.count_append, List.count_append, count_pieces hps, hopening, hclosing]
      at hclosed
    omega

/-- **Closed templates.** A template with as many openings as closings is scanned to its end without
    an open parameter. -/
theorem exists_run_of_closed {u : String} {ps : List Piece} (hu : pieces u = .ok ps)
    (hclosed : u.toList.count '<' = u.toList.count '>') :
    ∃ done run, scan (.literal "") 0 u.toList = .ok (done, .literal run) ∧
      ps = done ++ literalPiece run := by
  unfold pieces at hu
  split at hu
  · cases hu
  next done last hscan =>
  obtain rfl := Except.ok.inj hu
  have hcompletes := Completes.of_scan (by simp [Mode.WellFormed]) hscan
  have hleftover := eq_none_of_closed hcompletes.wellFormed hcompletes.openEnd
    hcompletes.written hclosed
  cases last with
  | literal run => exact ⟨done, run, hscan, rfl⟩
  | naming name => cases hleftover
  | typing name type => cases hleftover

/-- A character leads to an empty literal run exactly if it closes a parameter. -/
theorem run_eq_empty_iff_of_step {mode : Mode} {c : Char} {out : List Piece} {run : String}
    (hstep : mode.step c = some (out, .literal run)) : run = "" ↔ c = '>' := by
  have hpush : ∀ s : String, s.push c ≠ "" := by
    intro s hs
    simpa using congrArg String.length hs
  unfold Mode.step at hstep
  split at hstep <;> grind

/-- The literal run that a text leaves is empty exactly if the text ends with a parameter. -/
theorem run_eq_empty_iff {mode : Mode} {position : Nat} {text : List Char} {done : List Piece}
    {run : String} (hscan : scan mode position text = .ok (done, .literal run))
    (hne : text ≠ []) : run = "" ↔ text.getLast? = some '>' := by
  induction text generalizing mode position done with
  | nil => exact absurd rfl hne
  | cons c rest ih =>
    rw [scan] at hscan
    split at hscan
    · cases hscan
    next out next hstep =>
    split at hscan
    · cases hscan
    next more last hrest =>
    obtain ⟨-, rfl⟩ := Prod.mk.inj (Except.ok.inj hscan)
    cases rest with
    | nil =>
      obtain ⟨-, rfl⟩ := Prod.mk.inj (Except.ok.inj hrest)
      simpa using run_eq_empty_iff_of_step hstep
    | cons d rest => simpa using ih hrest (by simp)

/-- The first piece of a template is a literal exactly if the template starts with literal text. -/
theorem startsLiteral_iff {v : String} {qs : List Piece} (hv : pieces v = .ok qs) :
    startsLiteral qs = true ↔ v ≠ "" ∧ v.toList.head? ≠ some '<' := by
  have hfrom : piecesFrom (.literal "") 0 v.toList = .ok qs := hv
  cases htext : v.toList with
  | nil =>
    obtain rfl : v = "" := String.toList_eq_nil_iff.1 htext
    obtain rfl : qs = [] := by simpa [pieces, scan, Mode.finish, literalPiece] using hv.symm
    simp [startsLiteral]
  | cons c rest =>
    have hne : v ≠ "" := by
      intro he
      simp [he] at htext
    rw [htext, piecesFrom_cons] at hfrom
    simp only [hne, List.head?_cons, ne_eq, not_false_eq_true, Option.some.injEq, true_and]
    by_cases hl : c = '<'
    · have hrest : piecesFrom (.naming "") 1 rest = .ok qs := by
        have hopening : (Mode.literal "").step c = some ([], .naming "") := by
          simp [Mode.step, hl, literalPiece]
        rw [hopening] at hfrom
        cases hnaming : piecesFrom (.naming "") 1 rest <;> simp_all [Except.map]
      simp [hl, startsLiteral_of_naming hrest]
    by_cases hr : c = '>'
    · simp [Mode.step, hr] at hfrom
    · have hgathers : (Mode.literal "").step c = some ([], .literal ("".push c ++ "")) := by
        simp [Mode.step, hl, hr]
      rw [hgathers] at hfrom
      dsimp only at hfrom
      rw [piecesFrom_gathered] at hfrom
      cases hrest : piecesFrom (.literal "") (0 + 1) rest with
      | error e => simp [hrest, Except.map] at hfrom
      | ok ps =>
        obtain ⟨text, after, hlead⟩ :=
          exists_literal_of_leadWith (show "".push c ≠ "" by simp [← String.toList_inj]) ps
        rw [hrest] at hfrom
        obtain rfl : leadWith ("".push c) ps = qs := Except.ok.inj hfrom
        rw [hlead]
        simp [startsLiteral, hl]

/-! ## Expressions and arguments of two parts -/

/-- Two expressions added up; an empty one adds nothing. -/
def addedUp (first second : String) : String :=
  if first = "" ∨ second = "" then first ++ second else first ++ " + " ++ second

theorem Piece.operand_ne_empty {piece : Piece} (h : piece.WellFormed) : piece.operand ≠ "" := by
  cases piece with
  | literal run =>
    intro he
    simpa [operand, Text.toList_quoted] using congrArg String.toList he
  | parameter name type => exact h.1.1

theorem expression_eq_empty_iff {ps : List Piece} (h : ∀ piece ∈ ps, piece.WellFormed) :
    expression ps = "" ↔ ps = [] := by
  cases ps with
  | nil => simp [expression]
  | cons piece ps =>
    have hne := Piece.operand_ne_empty (h piece (List.mem_cons_self ..))
    cases ps with
    | nil => simpa [expression] using hne
    | cons next ps => simp [expression, hne]

/-- The expression of pieces that stand next to each other. -/
theorem expression_append {ps qs : List Piece} (hps : ∀ piece ∈ ps, piece.WellFormed)
    (hqs : ∀ piece ∈ qs, piece.WellFormed) :
    expression (ps ++ qs) = addedUp (expression ps) (expression qs) := by
  unfold addedUp
  simp only [expression_eq_empty_iff hps, expression_eq_empty_iff hqs]
  by_cases hp : ps = []
  · simp [hp, expression]
  by_cases hq : qs = []
  · simp [hq, expression]
  rw [if_neg (by simp [hp, hq]), expression, List.map_append,
    String.intercalate_append_of_ne_nil (by simpa using hp) (by simpa using hq)]
  rfl

theorem arguments_literalPiece (run : String) : arguments (literalPiece run) = [] := by
  unfold literalPiece
  split <;> rfl

theorem arguments_leadWith (run : String) (qs : List Piece) :
    arguments (leadWith run qs) = arguments qs := by
  unfold leadWith
  split
  · rfl
  · simpa [arguments] using arguments_literalPiece run

/-! ## The law -/

/-- The two parts meet at a parameter, or one of them is empty. -/
def MeetAtParameter (u v : String) : Prop :=
  u = "" ∨ u.toList.getLast? = some '>' ∨ v = "" ∨ v.toList.head? = some '<'

instance (u v : String) : Decidable (MeetAtParameter u v) :=
  inferInstanceAs (Decidable (_ ∨ _ ∨ _ ∨ _))

/-- Where the parts meet at a parameter, the pieces stand next to each other. -/
theorem append_leadWith_of_meet {u v : String} {done qs : List Piece} {run : String}
    (hscan : scan (.literal "") 0 u.toList = .ok (done, .literal run)) (hv : pieces v = .ok qs)
    (hmeet : MeetAtParameter u v) : done ++ leadWith run qs = done ++ literalPiece run ++ qs := by
  have hleft : run = "" → done ++ leadWith run qs = done ++ literalPiece run ++ qs := by
    intro hrun
    simp [hrun, leadWith_empty, literalPiece]
  have hright : ¬(v ≠ "" ∧ v.toList.head? ≠ some '<') →
      done ++ leadWith run qs = done ++ literalPiece run ++ qs := by
    intro hstart
    have hqs : startsLiteral qs = false := by
      rwa [← startsLiteral_iff hv, Bool.not_eq_true] at hstart
    rw [leadWith_of_startsLiteral_eq_false hqs, List.append_assoc]
  rcases hmeet with rfl | hlast | hempty | hhead
  · obtain ⟨-, hrun⟩ := Prod.mk.inj (Except.ok.inj hscan)
    exact hleft (by simpa using (Mode.literal.inj hrun).symm)
  · have hne : u.toList ≠ [] := by
      intro he
      simp [he] at hlast
    exact hleft ((run_eq_empty_iff hscan hne).2 hlast)
  · exact hright fun h => h.1 hempty
  · exact hright fun h => h.2 hhead

/-- Where they do not, both have literal text there, which makes one piece. -/
theorem exists_merged_of_not_meet {u v : String} {done qs : List Piece} {run : String}
    (hscan : scan (.literal "") 0 u.toList = .ok (done, .literal run)) (hv : pieces v = .ok qs)
    (hmeet : ¬MeetAtParameter u v) :
    ∃ text after, literalPiece run = [.literal run] ∧ qs = .literal text :: after ∧
      leadWith run qs = .literal (run ++ text) :: after := by
  simp only [MeetAtParameter, not_or] at hmeet
  obtain ⟨hu, hlast, hne, hhead⟩ := hmeet
  have hrun : run ≠ "" := by
    rw [ne_eq, run_eq_empty_iff hscan (by simpa using hu)]
    exact hlast
  have hstart := (startsLiteral_iff hv).2 ⟨hne, hhead⟩
  unfold startsLiteral at hstart
  split at hstart
  · next text after => exact ⟨text, after, by simp [literalPiece, hrun], rfl, rfl⟩
  · cases hstart

/-- **Templates compose.** A text behind a closed template is accepted exactly if it is accepted on
    its own, and its error is the same with the length of the template added to its position. The
    arguments of both parts follow each other. So do the pieces, and the expressions are added up,
    where the parts meet at a parameter; elsewhere the last literal of the first part and the first
    literal of the second part become one, and nothing else changes. -/
theorem pieces_append_of_closed {u : String} {ps : List Piece} (hu : pieces u = .ok ps)
    (hclosed : u.toList.count '<' = u.toList.count '>') (v : String) :
    ((∃ rs, pieces (u ++ v) = .ok rs) ↔ ∃ qs, pieces v = .ok qs) ∧
    (∀ (token : String) (position : Int), pieces v = .error ⟨token, some position⟩ →
      pieces (u ++ v) = .error ⟨token, some (u.length + position)⟩) ∧
    ∀ qs rs, pieces v = .ok qs → pieces (u ++ v) = .ok rs →
      arguments rs = arguments ps ++ arguments qs ∧
      (MeetAtParameter u v → expression rs = addedUp (expression ps) (expression qs)) ∧
      (¬MeetAtParameter u v → ∃ before text text' after,
        ps = before ++ [.literal text] ∧ qs = .literal text' :: after ∧
        rs = before ++ .literal (text ++ text') :: after ∧
        expression rs = " + ".intercalate
          (before.map Piece.operand ++ Text.quoted (text ++ text') :: after.map Piece.operand)) := by
  obtain ⟨done, run, hscan, rfl⟩ := exists_run_of_closed hu hclosed
  have happend := pieces_append hscan v
  refine ⟨?_, fun token position hv => ?_, fun qs rs hv huv => ?_⟩
  · rw [happend]
    cases pieces v <;> simp
  · rw [happend, hv]
    rfl
  · obtain rfl : done ++ leadWith run qs = rs := by
      rw [happend, hv] at huv
      exact Except.ok.inj huv
    refine ⟨?_, fun hmeet => ?_, fun hmeet => ?_⟩
    · have harguments : ∀ ps qs : List Piece,
          arguments (ps ++ qs) = arguments ps ++ arguments qs := by
        intro ps qs
        simp [arguments]
      rw [harguments, harguments, arguments_leadWith, arguments_literalPiece, List.append_nil]
    · obtain ⟨_, hps⟩ := exists_decomposes_of_pieces_eq_ok hu
      obtain ⟨_, hqs⟩ := exists_decomposes_of_pieces_eq_ok hv
      rw [append_leadWith_of_meet hscan hv hmeet, expression_append hps.wellFormed hqs.wellFormed]
    · obtain ⟨text, after, hrun, rfl, hlead⟩ := exists_merged_of_not_meet hscan hv hmeet
      refine ⟨done, run, text, after, by rw [hrun], rfl, by rw [hlead], ?_⟩
      rw [hlead, expression, List.map_append]
      rfl

/-- A template that ends in literal text, and one that starts with literal text. -/
theorem pieces_append_of_closed_merged :
    pieces "<a:b>/c" = .ok [.parameter "a" (some "b"), .literal "/c"] ∧
    "<a:b>/c".toList.count '<' = "<a:b>/c".toList.count '>' ∧
    pieces "d/<e>" = .ok [.literal "d/", .parameter "e" none] ∧
    ¬MeetAtParameter "<a:b>/c" "d/<e>" ∧
    ∃ rs, pieces ("<a:b>/c" ++ "d/<e>") = .ok rs ∧ expression rs = "a + \"/cd/\" + e" ∧
      arguments rs = [⟨"a", "b"⟩, ⟨"e", "any"⟩] := by
  have hu : pieces "<a:b>/c" = .ok [.parameter "a" (some "b"), .literal "/c"] := rfl
  have hv : pieces "d/<e>" = .ok [.literal "d/", .parameter "e" none] := rfl
  have hmeet : ¬MeetAtParameter "<a:b>/c" "d/<e>" := by decide
  obtain ⟨haccepted, -, hboth⟩ := pieces_append_of_closed hu (by decide) "d/<e>"
  obtain ⟨rs, hrs⟩ := haccepted.2 ⟨_, hv⟩
  obtain ⟨harguments, -, hmerged⟩ := hboth _ rs hv hrs
  obtain ⟨before, text, text', after, hps, hqs, -, hexpression⟩ := hmerged hmeet
  refine ⟨hu, by decide, hv, hmeet, rs, hrs, ?_, harguments⟩
  have hsplit : [Piece.parameter "a" (some "b")] ++ [Piece.literal "/c"] =
      before ++ [Piece.literal text] := hps
  obtain ⟨rfl, hlast⟩ := List.append_inj' hsplit rfl
  obtain rfl : "/c" = text := Piece.literal.inj (List.cons.inj hlast).1
  obtain ⟨hfirst, rfl⟩ := List.cons.inj hqs
  obtain rfl := Piece.literal.inj hfirst
  rw [hexpression]
  decide

end ApiScribe.Template

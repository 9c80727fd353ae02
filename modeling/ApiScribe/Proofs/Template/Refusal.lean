import ApiScribe.Proofs.Template.Grammar
import Mathlib.Logic.ExistsUnique

set_option autoImplicit false

/-! # Where a template is refused

The scanner gives up at the first character that cannot be part of any template: what stands before
it is a template on its own, and with it no template begins (`pieces_eq_error_iff`). Which
characters these are depends on the text before them alone, on whether it ends inside a parameter
and what of that parameter it already holds (`Misplacement`).

The scanner sees a mode in place of that text. That the mode is the right one is carried along the
scan, one character at a time (`Tracks.of_step`, `Tracks.of_scan`). -/

namespace ApiScribe.Template

/-! ## Errors of the scanner -/

/-- A scan fails at one character: the text before it is scanned, and the mode there has no place
    for it. What comes after the character is not looked at. -/
theorem scan_eq_error_iff {mode : Mode} {position : Nat} {text : List Char}
    {e : UnexpectedToken} :
    scan mode position text = .error e ↔
      ∃ before c after done last, text = before ++ c :: after ∧
        scan mode position before = .ok (done, last) ∧ last.step c = none ∧
        e = ⟨c.toString, some ((position + before.length : Nat) : Int)⟩ := by
  constructor
  · intro h
    induction text generalizing mode position with
    | nil => simp [scan] at h
    | cons c rest ih =>
      rw [scan] at h
      split at h
      · next hstep =>
        exact ⟨[], c, rest, [], mode, rfl, rfl, hstep, (Except.error.inj h).symm⟩
      next out next hstep =>
      split at h
      · next e' hscan =>
        obtain rfl : e' = e := Except.error.inj h
        obtain ⟨before, x, after, done, last, rfl, hbefore, hnone, he⟩ := ih hscan
        refine ⟨c :: before, x, after, out ++ done, last, rfl, ?_, hnone, ?_⟩
        · simp [scan, hstep, hbefore]
        · rw [he, List.length_cons, Nat.add_assoc, Nat.add_comm 1]
      · cases h
  · rintro ⟨before, c, after, done, last, rfl, hbefore, hnone, rfl⟩
    rw [scan_append, hbefore]
    simp [scan, hnone]

/-- The text is a template. -/
def Accepted (url : String) : Prop := ∃ ps, pieces url = .ok ps

theorem accepted_iff_scan {url : String} :
    Accepted url ↔ ∃ done last, scan (.literal "") 0 url.toList = .ok (done, last) := by
  unfold Accepted pieces
  cases scan (.literal "") 0 url.toList with
  | error e => simp
  | ok result => exact ⟨fun _ => ⟨result.1, result.2, rfl⟩, fun _ => ⟨_, rfl⟩⟩

/-- The first `n` characters of a text. -/
def firstChars (text : String) (n : Nat) : String := String.ofList (text.toList.take n)

/-- What a template starts with is a template. -/
theorem Accepted.firstChars {url : String} (h : Accepted url) (n : Nat) :
    Accepted (firstChars url n) := by
  obtain ⟨done, last, hscan⟩ := accepted_iff_scan.1 h
  rw [← List.take_append_drop n url.toList, scan_append] at hscan
  rw [accepted_iff_scan, Template.firstChars, String.toList_ofList]
  split at hscan
  · cases hscan
  · next done' next hfirst => exact ⟨done', next, hfirst⟩

/-- The error at a character, in terms of the mode that the text before it leads to. -/
theorem pieces_eq_error_iff_step {url : String} {p : Nat} {c : Char} :
    pieces url = .error ⟨c.toString, some (p : Int)⟩ ↔
      url.toList[p]? = some c ∧ ∃ done last,
        scan (.literal "") 0 (url.toList.take p) = .ok (done, last) ∧ last.step c = none := by
  have hpieces : pieces url = .error ⟨c.toString, some (p : Int)⟩ ↔
      scan (.literal "") 0 url.toList = .error ⟨c.toString, some (p : Int)⟩ := by
    unfold pieces
    cases scan (.literal "") 0 url.toList <;> simp
  rw [hpieces, scan_eq_error_iff]
  constructor
  · rintro ⟨before, d, after, done, last, htext, hscan, hnone, he⟩
    obtain ⟨htoken, hposition⟩ := UnexpectedToken.mk.inj he
    obtain rfl : d = c := by simpa [Char.toString] using htoken.symm
    obtain rfl : before.length = p := by
      have hposition := Option.some.inj hposition
      omega
    exact ⟨by simp [htext], done, last, by simpa [htext] using hscan, hnone⟩
  · rintro ⟨hc, done, last, hscan, hnone⟩
    obtain ⟨hp, hc⟩ := List.getElem?_eq_some_iff.1 hc
    have htext : url.toList = url.toList.take p ++ c :: url.toList.drop (p + 1) := by
      rw [← hc, ← List.drop_eq_getElem_cons hp, List.take_append_drop]
    refine ⟨_, c, _, done, last, htext, hscan, hnone, ?_⟩
    rw [List.length_take_of_le (by omega), Nat.zero_add]

/-- **The first possible place.** A template is refused at a character exactly if what stands before
    it is a template and no longer is one with it. -/
theorem pieces_eq_error_iff {url : String} {p : Nat} {c : Char} :
    pieces url = .error ⟨c.toString, some (p : Int)⟩ ↔
      url.toList[p]? = some c ∧ Accepted (firstChars url p) ∧
        ¬Accepted (firstChars url (p + 1)) := by
  rw [pieces_eq_error_iff_step]
  refine and_congr_right fun hc => ?_
  obtain ⟨hp, hget⟩ := List.getElem?_eq_some_iff.1 hc
  have hsucc : url.toList.take (p + 1) = url.toList.take p ++ [c] := by
    rw [List.take_succ_eq_append_getElem hp, hget]
  rw [accepted_iff_scan, accepted_iff_scan, firstChars, firstChars, String.toList_ofList,
    String.toList_ofList, hsucc]
  constructor
  · rintro ⟨done, last, hscan, hnone⟩
    refine ⟨⟨done, last, hscan⟩, ?_⟩
    rw [scan_append, hscan]
    simp [scan, hnone]
  · rintro ⟨⟨done, last, hscan⟩, hrefused⟩
    refine ⟨done, last, hscan, ?_⟩
    cases hstep : last.step c with
    | none => rfl
    | some result =>
      refine absurd ⟨done ++ result.1, result.2, ?_⟩ hrefused
      rw [scan_append, hscan]
      simp [scan, hstep]

/-- A refused template is refused at one of its characters. -/
theorem exists_error_of_not_accepted {url : String} (h : ¬Accepted url) :
    ∃ (p : Nat) (c : Char), pieces url = .error ⟨c.toString, some (p : Int)⟩ := by
  cases hscan : scan (.literal "") 0 url.toList with
  | ok result => exact absurd (accepted_iff_scan.2 ⟨result.1, result.2, hscan⟩) h
  | error e =>
    obtain ⟨before, c, after, done, last, -, -, -, rfl⟩ := scan_eq_error_iff.1 hscan
    exact ⟨0 + before.length, c, by simp [pieces, hscan]⟩

/-! ## The text before the character -/

/-- The text ends inside a parameter: `rest` is what stands behind its last opening, and nothing
    closes the parameter. -/
def EndsInside (text rest : List Char) : Prop :=
  ∃ before, text = before ++ '<' :: rest ∧ '<' ∉ rest ∧ '>' ∉ rest

/-- The part of a parameter before its first colon. -/
def namePart (parameter : List Char) : List Char := parameter.takeWhile (· ≠ ':')

/-- The part of a parameter behind its first colon. -/
def typePart (parameter : List Char) : List Char := (parameter.dropWhile (· ≠ ':')).drop 1

/-- Why a character cannot follow a text. -/
inductive Misplacement where
  /-- It closes a parameter where none is open. -/
  | strayClosing
  /-- It opens a parameter inside another one. -/
  | secondOpening
  /-- It starts a type where one has been started. -/
  | secondColon
  /-- It closes a parameter without a name, or one whose type is started and empty. -/
  | emptyPart
deriving DecidableEq, Repr

/-- The character cannot follow the text for this reason. -/
def Misplacement.Holds (text : List Char) (c : Char) : Misplacement → Prop
  | strayClosing => (¬∃ rest, EndsInside text rest) ∧ c = '>'
  | secondOpening => (∃ rest, EndsInside text rest) ∧ c = '<'
  | secondColon => ∃ rest, EndsInside text rest ∧ c = ':' ∧ ':' ∈ rest
  | emptyPart => ∃ rest, EndsInside text rest ∧ c = '>' ∧
      (namePart rest = [] ∨ ':' ∈ rest ∧ typePart rest = [])

/-- No two reasons hold at once. -/
theorem Misplacement.unique {text : List Char} {c : Char} {reason reason' : Misplacement}
    (h : reason.Holds text c) (h' : reason'.Holds text c) : reason = reason' := by
  cases reason <;> cases reason' <;> simp only [Holds] at h h' <;> grind

theorem Misplacement.exists_iff {text : List Char} {c : Char} :
    (∃ reason : Misplacement, reason.Holds text c) ↔
      strayClosing.Holds text c ∨ secondOpening.Holds text c ∨ secondColon.Holds text c ∨
        emptyPart.Holds text c := by
  constructor
  · rintro ⟨reason, h⟩
    cases reason <;> simp [h]
  · rintro (h | h | h | h) <;> exact ⟨_, h⟩

/-! ## Modes follow the text -/

/-- After the text the mode is well formed, and it has a parameter open exactly if the text ends
    inside one, with the same characters in it. -/
structure Tracks (text : List Char) (mode : Mode) : Prop where
  wellFormed : mode.WellFormed
  inside : ∀ rest, EndsInside text rest ↔ mode.leftover = some (String.ofList rest)

theorem tracks_nil : Tracks [] (.literal "") where
  wellFormed := by simp [Mode.WellFormed]
  inside := by
    intro rest
    simp [EndsInside, Mode.leftover]

/-- One more character: it opens a parameter, stands in the open one, or ends all of them. -/
theorem endsInside_append_singleton {text rest : List Char} {c : Char} :
    EndsInside (text ++ [c]) rest ↔ (c = '<' ∧ rest = []) ∨
      (c ≠ '<' ∧ c ≠ '>' ∧ ∃ shorter, rest = shorter ++ [c] ∧ EndsInside text shorter) := by
  constructor
  · rintro ⟨before, htext, hopen, hclose⟩
    rcases List.eq_nil_or_concat rest with rfl | ⟨shorter, d, rfl⟩
    · obtain ⟨-, hc⟩ := List.append_inj' htext rfl
      exact .inl ⟨(List.cons.inj hc).1, rfl⟩
    · have htext' : text ++ [c] = (before ++ '<' :: shorter) ++ [d] := by simpa using htext
      obtain ⟨rfl, hd⟩ := List.append_inj' htext' rfl
      obtain rfl : c = d := (List.cons.inj hd).1
      simp only [List.concat_eq_append, List.mem_append, List.mem_singleton, not_or] at hopen hclose
      exact .inr ⟨Ne.symm hopen.2, Ne.symm hclose.2, shorter, by simp, before, rfl, hopen.1,
        hclose.1⟩
  · rintro (⟨rfl, rfl⟩ | ⟨hl, hr, shorter, rfl, before, rfl, hopen, hclose⟩)
    · exact ⟨text, rfl, by simp, by simp⟩
    · exact ⟨before, by simp, by simp [hopen, Ne.symm hl], by simp [hclose, Ne.symm hr]⟩

/-- What one step does to the open parameter. -/
theorem leftover_of_step {mode next : Mode} {c : Char} {out : List Piece}
    (hstep : mode.step c = some (out, next)) :
    next.leftover = if c = '<' then some "" else if c = '>' then none
      else mode.leftover.map (·.push c) := by
  have hcolon : ∀ name : String, name.push ':' = name ++ ":" ++ "" := by
    intro name
    simp [← String.toList_inj]
  have htype : ∀ name type : String, (name ++ ":" ++ type).push c = name ++ ":" ++ type.push c := by
    intro name type
    simp [← String.toList_inj]
  unfold Mode.step at hstep
  split at hstep
  case h_1 run => grind [Mode.leftover]
  case h_2 name => grind [Mode.leftover]
  case h_3 name type => grind [Mode.leftover]

/-- **One step.** -/
theorem Tracks.of_step {text : List Char} {mode next : Mode} {c : Char} {out : List Piece}
    (h : Tracks text mode) (hstep : mode.step c = some (out, next)) :
    Tracks (text ++ [c]) next where
  wellFormed := (Completes.of_step h.wellFormed hstep).1
  inside := by
    intro rest
    rw [endsInside_append_singleton, leftover_of_step hstep]
    by_cases hl : c = '<'
    · simp [hl, ← String.toList_inj]
    by_cases hr : c = '>'
    · simp [hr]
    simp only [hl, hr, false_and, false_or, ne_eq, not_false_eq_true, true_and, ↓reduceIte,
      Option.map_eq_some_iff]
    constructor
    · rintro ⟨shorter, rfl, hinside⟩
      exact ⟨_, (h.inside shorter).1 hinside, by simp⟩
    · rintro ⟨gathered, hgathered, hpush⟩
      have hrest : rest = gathered.toList ++ [c] := by
        simpa [← String.toList_inj] using hpush.symm
      exact ⟨gathered.toList, hrest, (h.inside _).2 (by simpa using hgathered)⟩

/-- **The whole scan.** -/
theorem Tracks.of_scan {passed text : List Char} {mode last : Mode} {position : Nat}
    {done : List Piece} (h : Tracks passed mode)
    (hscan : scan mode position text = .ok (done, last)) : Tracks (passed ++ text) last := by
  induction text generalizing passed mode position done with
  | nil =>
    obtain ⟨-, rfl⟩ := Prod.mk.inj (Except.ok.inj hscan)
    simpa using h
  | cons c rest ih =>
    rw [scan] at hscan
    split at hscan
    · cases hscan
    next out next hstep =>
    split at hscan
    · cases hscan
    next more last' hrest =>
    obtain ⟨-, rfl⟩ := Prod.mk.inj (Except.ok.inj hscan)
    simpa using ih (h.of_step hstep) hrest

/-! ## Which characters have no place -/

theorem ne_colon_of_isWordChar {name : List Char} (h : ∀ c ∈ name, isWordChar c = true) :
    ∀ c ∈ name, decide (c ≠ ':') = true := by
  intro c hc
  refine decide_eq_true fun he => ?_
  exact absurd (h c hc) (by rw [he]; decide)

/-- A parameter without a colon is a name. -/
theorem namePart_of_isWordChar {name : List Char} (h : ∀ c ∈ name, isWordChar c = true) :
    namePart name = name ∧ ':' ∉ name := by
  have hname := ne_colon_of_isWordChar h
  refine ⟨?_, fun hcolon => absurd (h _ hcolon) (by decide)⟩
  have htake : (name ++ []).takeWhile (· ≠ ':') = name ++ [].takeWhile (· ≠ ':') :=
    List.takeWhile_append_of_pos hname
  simpa [namePart] using htake

/-- A parameter with a colon consists of a name and a type. -/
theorem parts_of_colon {name : List Char} (h : ∀ c ∈ name, isWordChar c = true)
    (type : List Char) :
    namePart (name ++ ':' :: type) = name ∧ typePart (name ++ ':' :: type) = type := by
  have hname := ne_colon_of_isWordChar h
  unfold namePart typePart
  rw [List.takeWhile_append_of_pos hname, List.dropWhile_append_of_pos hname]
  simp

/-- The text ends inside the parameter that the mode has open, and inside no other. -/
theorem Tracks.endsInside_iff {text : List Char} {mode : Mode} {parameter : String}
    (h : Tracks text mode) (hopen : mode.leftover = some parameter) (rest : List Char) :
    EndsInside text rest ↔ rest = parameter.toList := by
  rw [h.inside, hopen, Option.some.injEq, ← String.toList_inj, String.toList_ofList]
  exact eq_comm

/-- **Misplaced characters.** A mode has no place for a character exactly if there is a reason in
    the text why the character cannot follow. -/
theorem Tracks.step_eq_none_iff {text : List Char} {mode : Mode} (h : Tracks text mode) (c : Char) :
    mode.step c = none ↔ ∃ reason : Misplacement, reason.Holds text c := by
  rw [Misplacement.exists_iff]
  cases mode with
  | literal run =>
    have hnone : ∀ rest, ¬EndsInside text rest := by
      intro rest hrest
      simpa [Mode.leftover] using (h.inside rest).1 hrest
    simp only [Misplacement.Holds, hnone, Mode.step]
    grind
  | naming name =>
    have hinside := h.endsInside_iff rfl
    obtain ⟨hpart, hcolon⟩ := namePart_of_isWordChar h.wellFormed
    simp only [Misplacement.Holds, hinside, exists_eq_left, exists_eq, hpart, hcolon, Mode.step]
    grind [String.toList_eq_nil_iff, String.isEmpty_iff]
  | typing name type =>
    have hparameter : (name ++ ":" ++ type).toList = name.toList ++ ':' :: type.toList := by simp
    have hinside := h.endsInside_iff rfl
    obtain ⟨hname, htype⟩ := parts_of_colon h.wellFormed.1 type.toList
    have hcolon : ':' ∈ name.toList ++ ':' :: type.toList := by simp
    simp only [Misplacement.Holds, hinside, hparameter, exists_eq_left, exists_eq, hname, htype,
      hcolon, Mode.step]
    grind [String.toList_eq_nil_iff, String.isEmpty_iff]

/-- The error at a character, in terms of the text before it. -/
theorem pieces_eq_error_iff_misplaced {url : String} {p : Nat} {c : Char} :
    pieces url = .error ⟨c.toString, some (p : Int)⟩ ↔
      url.toList[p]? = some c ∧ Accepted (firstChars url p) ∧
        ∃ reason : Misplacement, reason.Holds (url.toList.take p) c := by
  rw [pieces_eq_error_iff_step]
  refine and_congr_right fun _ => ?_
  rw [accepted_iff_scan, firstChars, String.toList_ofList]
  constructor
  · rintro ⟨done, last, hscan, hnone⟩
    have htracks : Tracks (url.toList.take p) last := tracks_nil.of_scan hscan
    exact ⟨⟨done, last, hscan⟩, (htracks.step_eq_none_iff c).1 hnone⟩
  · rintro ⟨⟨done, last, hscan⟩, hreason⟩
    have htracks : Tracks (url.toList.take p) last := tracks_nil.of_scan hscan
    exact ⟨done, last, hscan, (htracks.step_eq_none_iff c).2 hreason⟩

/-! ## The error of a template -/

/-- **Templates are refused at the first possible character.** A character is reported exactly if
    the text before it is a template and the text up to and with it is not; in other words, if the
    text before it is a template and exactly one of four reasons keeps the character from following.
    So what a template starts with is a template, a refused template has one such character, and the
    text behind this character does not matter. -/
theorem pieces_refused_at_first (url : String) :
    (∀ (p : Nat) (c : Char), pieces url = .error ⟨c.toString, some (p : Int)⟩ ↔
      url.toList[p]? = some c ∧ Accepted (firstChars url p) ∧
        ¬Accepted (firstChars url (p + 1))) ∧
    (Accepted url → ∀ n, Accepted (firstChars url n)) ∧
    (¬Accepted url → ∃! place : Nat × Char,
      pieces url = .error ⟨place.2.toString, some (place.1 : Int)⟩) ∧
    (∀ (p : Nat) (c : Char), pieces url = .error ⟨c.toString, some (p : Int)⟩ →
      ∀ rest, pieces (firstChars url (p + 1) ++ rest) = .error ⟨c.toString, some (p : Int)⟩) ∧
    (∀ (p : Nat) (c : Char), pieces url = .error ⟨c.toString, some (p : Int)⟩ ↔
      url.toList[p]? = some c ∧ Accepted (firstChars url p) ∧
        ∃! reason : Misplacement, reason.Holds (url.toList.take p) c) := by
  refine ⟨fun _ _ => pieces_eq_error_iff, Accepted.firstChars, fun hrefused => ?_,
    fun p c hp rest => ?_, fun p c => ?_⟩
  · obtain ⟨p, c, hp⟩ := exists_error_of_not_accepted hrefused
    refine ⟨(p, c), hp, ?_⟩
    rintro ⟨p', c'⟩ hp'
    obtain ⟨htoken, hposition⟩ := UnexpectedToken.mk.inj (Except.error.inj (hp'.symm.trans hp))
    obtain rfl : c' = c := by simpa [Char.toString] using htoken
    obtain rfl : p' = p := by
      have hposition := Option.some.inj hposition
      omega
    rfl
  · rw [pieces_eq_error_iff_step] at hp ⊢
    obtain ⟨hc, hscan⟩ := hp
    obtain ⟨hlt, -⟩ := List.getElem?_eq_some_iff.1 hc
    have hlength : (url.toList.take (p + 1)).length = p + 1 := List.length_take_of_le hlt
    have htake : (firstChars url (p + 1) ++ rest).toList.take p = url.toList.take p := by
      rw [firstChars, String.toList_append, String.toList_ofList,
        List.take_append_of_le_length (by omega), List.take_take, Nat.min_eq_left (by omega)]
    have hget : (firstChars url (p + 1) ++ rest).toList[p]? = some c := by
      rw [firstChars, String.toList_append, String.toList_ofList,
        List.getElem?_append_left (by omega), List.getElem?_take_of_lt (by omega), hc]
    rw [htake]
    exact ⟨hget, hscan⟩
  · rw [pieces_eq_error_iff_misplaced]
    refine and_congr_right fun _ => and_congr_right fun _ => ⟨?_, ExistsUnique.exists⟩
    rintro ⟨reason, hreason⟩
    exact ⟨reason, hreason, fun reason' hreason' => Misplacement.unique hreason' hreason⟩

end ApiScribe.Template

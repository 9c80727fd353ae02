import ApiScribe.FileSystem.Basic

set_option autoImplicit false

/-! # Routes and normal forms

Splitting a text at its slashes undoes putting slashes between steps, if the steps have none. So the
text of a path in normal form gives the route of that path (`Route.ofText_normalForm`). Its steps
are steps of the path as it was given, or empty, or single dots, and the system takes it for a path
if it took that one for a path (`readFile_normalForm_ne_embeddedNul`). -/

namespace ApiScribe

/-! ## Steps between slashes -/

theorem splitSlashes_ne_nil (text : List Char) : splitSlashes text ≠ [] := by
  induction text with
  | nil => simp [splitSlashes]
  | cons c rest ih =>
    obtain ⟨step, steps, hrest⟩ := List.exists_cons_of_ne_nil ih
    rw [splitSlashes, hrest]
    dsimp only
    split <;> simp

theorem splitSlashes_slash (rest : List Char) : splitSlashes ('/' :: rest) = [] :: splitSlashes rest := by
  obtain ⟨step, steps, hrest⟩ := List.exists_cons_of_ne_nil (splitSlashes_ne_nil rest)
  simp [splitSlashes, hrest]

theorem splitSlashes_of_notMem {step : List Char} (h : '/' ∉ step) : splitSlashes step = [step] := by
  induction step with
  | nil => rfl
  | cons c step ih =>
    obtain ⟨hc, hstep⟩ := List.ne_and_not_mem_of_not_mem_cons h
    rw [splitSlashes, ih hstep]
    exact if_neg (Ne.symm hc)

theorem splitSlashes_append {step : List Char} (h : '/' ∉ step) (rest : List Char) :
    splitSlashes (step ++ '/' :: rest) = step :: splitSlashes rest := by
  induction step with
  | nil => exact splitSlashes_slash rest
  | cons c step ih =>
    obtain ⟨hc, hstep⟩ := List.ne_and_not_mem_of_not_mem_cons h
    rw [List.cons_append, splitSlashes, ih hstep]
    exact if_neg (Ne.symm hc)

/-- What slashes are put between is found between them. -/
theorem splitSlashes_intercalate {steps : List (List Char)} (hne : steps ≠ [])
    (h : ∀ step ∈ steps, '/' ∉ step) : splitSlashes (['/'].intercalate steps) = steps := by
  induction steps with
  | nil => exact absurd rfl hne
  | cons step steps ih =>
    have hstep : '/' ∉ step := h step (List.mem_cons_self ..)
    cases steps with
    | nil =>
      rw [List.intercalate_singleton]
      exact splitSlashes_of_notMem hstep
    | cons next steps =>
      rw [List.intercalate_cons_cons, List.append_assoc, List.singleton_append,
        splitSlashes_append hstep, ih (by simp) fun s hs => h s (List.mem_cons_of_mem _ hs)]

theorem not_mem_of_mem_splitSlashes {text step : List Char} (h : step ∈ splitSlashes text) :
    '/' ∉ step := by
  induction text generalizing step with
  | nil =>
    rw [splitSlashes, List.mem_singleton] at h
    simp [h]
  | cons c rest ih =>
    obtain ⟨first, steps, hrest⟩ := List.exists_cons_of_ne_nil (splitSlashes_ne_nil rest)
    have hbelow : ∀ s ∈ first :: steps, '/' ∉ s := fun s hs => ih (by rw [hrest]; exact hs)
    rw [splitSlashes, hrest] at h
    dsimp only at h
    split at h
    · rcases List.mem_cons.1 h with rfl | h
      · simp
      · exact hbelow step h
    · next hc =>
      rcases List.mem_cons.1 h with rfl | h
      · simp [Ne.symm hc, hbelow first (List.mem_cons_self ..)]
      · exact hbelow step (List.mem_cons_of_mem _ h)

/-! ## Texts of routes -/

/-- The text of a route gives the route, if it has steps and these have no slashes. -/
theorem Route.ofText_text {route : Route} (hne : route ≠ [])
    (h : ∀ step ∈ route, '/' ∉ step.toList) : Route.ofText route.text = route := by
  have htext : route.text.toList = ['/'].intercalate (route.map String.toList) := by
    rw [Route.text, String.toList_intercalate]
    rfl
  have hsteps : ∀ step ∈ route.map String.toList, '/' ∉ step := by
    intro step hstep
    obtain ⟨text, htext, rfl⟩ := List.mem_map.1 hstep
    exact h text htext
  rw [Route.ofText, htext, splitSlashes_intercalate (by simpa using hne) hsteps, List.map_map]
  simp [Function.comp_def]

/-- The steps of a path are its names, or empty, or the dot that stands for the working directory. -/
theorem Path.mem_route {path : Path} {step : String} (h : step ∈ path.route) :
    step = "" ∨ step = "." ∨ step ∈ path.names := by
  unfold Path.route at h
  split at h
  · exact .inr (.inl (List.mem_singleton.1 h))
  · simp only [List.mem_append, List.mem_replicate, List.mem_singleton] at h
    rcases h with ⟨-, rfl⟩ | rfl <;> exact .inl rfl
  · simp only [List.mem_append, List.mem_replicate] at h
    rcases h with ⟨-, rfl⟩ | h
    · exact .inl rfl
    · exact .inr (.inr h)

theorem Path.route_ne_nil (path : Path) : path.route ≠ [] := by
  unfold Path.route
  split
  · simp
  · simp
  · next hnames _ => exact List.append_ne_nil_of_right_ne_nil _ hnames

/-- The steps of a normal form are those of the path as it is given, or empty, or single dots. -/
theorem Path.mem_route_ofText {text step : String} (h : step ∈ (Path.ofText text).route) :
    step = "" ∨ step = "." ∨ step ∈ Route.ofText text := by
  rcases Path.mem_route h with rfl | rfl | hname
  · exact .inl rfl
  · exact .inr (.inl rfl)
  · exact .inr (.inr (List.mem_filter.1 hname).1)

theorem Route.not_mem_of_mem_ofText {text step : String} (h : step ∈ Route.ofText text) :
    '/' ∉ step.toList := by
  obtain ⟨chars, hchars, rfl⟩ := List.mem_map.1 h
  rw [String.toList_ofList]
  exact not_mem_of_mem_splitSlashes hchars

/-- **The text of a normal form** gives its route. -/
theorem Route.ofText_normalForm (text : String) :
    Route.ofText (Path.ofText text).text = (Path.ofText text).route := by
  refine Route.ofText_text (Path.route_ne_nil _) fun step hstep => ?_
  rcases Path.mem_route_ofText hstep with rfl | rfl | h
  · decide
  · decide
  · exact Route.not_mem_of_mem_ofText h

namespace FileSystem

/-- A path is not even tried exactly if one of its steps holds a NUL. -/
theorem locate_eq_embeddedNul_iff {fs : FileSystem} {route : Route} :
    fs.locate route = .error .embeddedNul ↔ ∃ step ∈ route, '\x00' ∈ step.toList := by
  have hmap : ∀ x : Except Failure (Location × Option Entry),
      x.mapError AccessError.refused ≠ .error .embeddedNul := by
    intro x hx
    cases x <;> cases hx
  unfold locate
  split
  · next hnul => simpa using hnul
  next hnul =>
  refine iff_of_false ?_ (by simpa using hnul)
  split
  · simp
  split
  · simp
  · exact hmap _
  · exact hmap _

theorem readFile_eq_embeddedNul_iff {fs : FileSystem} {route : Route} :
    fs.readFile route = .error .embeddedNul ↔ ∃ step ∈ route, '\x00' ∈ step.toList := by
  rw [← @locate_eq_embeddedNul_iff fs]
  unfold readFile status
  cases fs.locate route with
  | error cause => simp
  | ok found =>
    obtain ⟨location, entry⟩ := found
    cases entry with
    | none => simp
    | some entry => cases entry <;> simp

/-- A file that is tried is tried in normal form too. -/
theorem readFile_normalForm_ne_embeddedNul {fs : FileSystem} {text : String}
    (h : fs.readFile (Route.ofText text) ≠ .error .embeddedNul) :
    fs.readFile (Route.ofText (Path.ofText text).text) ≠ .error .embeddedNul := by
  rw [Ne, readFile_eq_embeddedNul_iff] at h ⊢
  rw [Route.ofText_normalForm]
  rintro ⟨step, hstep, hnul⟩
  rcases Path.mem_route_ofText hstep with rfl | rfl | hmem
  · exact absurd hnul (by decide)
  · exact absurd hnul (by decide)
  · exact h ⟨step, hmem, hnul⟩

end FileSystem

end ApiScribe

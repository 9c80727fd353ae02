import ApiScribe.Proofs.FileSystem.Paths
import ApiScribe.Proofs.FileSystem.Trees

set_option autoImplicit false

/-! # Paths that lead downwards

A relative path without steps back leads from the working directory downwards, so its names behind
the location of the working directory are the only place that it can lead to (`target`). In a tree
it leads there exactly if it is not too long and all on the way are directories
(`Path.IsDownward.locate_eq_ok_iff`). Directories can be made along it exactly if no file is in the
way. That is not plain from the order in which they are made: the last one is tried first, and only
if it has nothing to stand in are the ones before it made, and it is tried again
(`exists_makeDirectories_eq_ok`). -/

namespace ApiScribe

open FileSystem (IsAncestor)

/-! ## Names -/

/-- A step that can lead to nothing but an entry of that name. -/
structure IsName (step : String) : Prop where
  ne_empty : step ≠ ""
  ne_here : step ≠ "."
  ne_back : step ≠ ".."
  noNul : '\x00' ∉ step.toList

/-- A relative path without NUL and without steps back, as it is given. -/
structure IsDownward (given : String) : Prop where
  relative : given.toList.head? ≠ some '/'
  noNul : '\x00' ∉ given.toList
  noStepBack : ".." ∉ Route.ofText given

/-- The normal form of such a path. -/
structure Path.IsDownward (path : Path) : Prop where
  relative : path.slashes = 0
  names : ∀ name ∈ path.names, IsName name

/-- No name of the path and not the path as a whole is too long for the system. -/
structure Path.Fits (path : Path) : Prop where
  names : ∀ name ∈ path.names, name.utf8ByteSize ≤ 255
  text : path.text.utf8ByteSize < 4096

theorem mem_of_mem_splitSlashes {text step : List Char} (h : step ∈ splitSlashes text) {c : Char}
    (hc : c ∈ step) : c ∈ text := by
  induction text generalizing step with
  | nil =>
    rw [splitSlashes, List.mem_singleton] at h
    rw [h] at hc
    exact hc
  | cons d rest ih =>
    obtain ⟨first, steps, hrest⟩ := List.exists_cons_of_ne_nil (splitSlashes_ne_nil rest)
    have hbelow : ∀ s ∈ first :: steps, c ∈ s → c ∈ d :: rest := fun s hs hcs =>
      List.mem_cons_of_mem _ (ih (by rw [hrest]; exact hs) hcs)
    rw [splitSlashes, hrest] at h
    dsimp only at h
    split at h
    · rcases List.mem_cons.1 h with rfl | h
      · cases hc
      · exact hbelow step h hc
    · rcases List.mem_cons.1 h with rfl | h
      · rcases List.mem_cons.1 hc with rfl | hc
        · exact List.mem_cons_self ..
        · exact hbelow first (List.mem_cons_self ..) hc
      · exact hbelow step (List.mem_cons_of_mem _ h) hc

/-- Empty steps and single dots are left out of the normal form, so names are what is left. -/
theorem IsDownward.ofText {given : String} (h : IsDownward given) : (Path.ofText given).IsDownward := by
  constructor
  · have hslashes : (given.toList.takeWhile (· = '/')).length = 0 := by
      have hrelative := h.relative
      cases hgiven : given.toList with
      | nil => rfl
      | cons c rest =>
        rw [hgiven] at hrelative
        have hc : c ≠ '/' := fun hc => hrelative (by rw [hc]; rfl)
        simp [hc]
    simp only [Path.ofText, hslashes]
  · intro name hname
    obtain ⟨hstep, hkept⟩ := List.mem_filter.1 hname
    simp only [Bool.and_eq_true, decide_eq_true_eq] at hkept
    refine ⟨hkept.1, hkept.2, fun hback => h.noStepBack (hback ▸ hstep), fun hnul => ?_⟩
    obtain ⟨step, hmem, rfl⟩ := List.mem_map.1 hstep
    rw [String.toList_ofList] at hnul
    exact h.noNul (mem_of_mem_splitSlashes hmem hnul)

namespace Path

theorem IsDownward.parent {path : Path} (h : path.IsDownward) : path.parent.IsDownward :=
  ⟨h.relative, fun name hname => h.names name (List.dropLast_subset _ hname)⟩

/-- A path without its last name is no longer than with it. -/
theorem utf8ByteSize_text_le {names : List String} (hnames : names ≠ []) (last : String) :
    (⟨0, names⟩ : Path).text.utf8ByteSize ≤ (⟨0, names ++ [last]⟩ : Path).text.utf8ByteSize := by
  have hroute : ∀ {names : List String}, names ≠ [] → (⟨0, names⟩ : Path).route = names := by
    intro names hnames
    unfold route
    split
    · contradiction
    · contradiction
    · rfl
  rw [text, text, hroute hnames, hroute (by simp), Route.text, Route.text,
    String.intercalate_append_of_ne_nil hnames (by simp), String.utf8ByteSize_append,
    String.utf8ByteSize_append, Nat.add_assoc]
  exact Nat.le_add_right ..

theorem Fits.dropLast {names : List String} {last : String}
    (h : (⟨0, names ++ [last]⟩ : Path).Fits) : (⟨0, names⟩ : Path).Fits := by
  refine ⟨fun name hname => h.names name (List.mem_append_left _ hname), ?_⟩
  by_cases hnames : names = []
  · subst hnames
    decide
  · exact Nat.lt_of_le_of_lt (utf8ByteSize_text_le hnames last) h.text

end Path

namespace FileSystem

variable {fs fs' : FileSystem} {here location : Location} {entry : Option Entry} {path : Path}

/-! ## Where downward paths lead -/

/-- The one place that a downward path can lead to. -/
def target (fs : FileSystem) (path : Path) : Location := fs.workingDirectory ++ path.names

theorem target_congr (h : fs'.workingDirectory = fs.workingDirectory) (path : Path) :
    fs'.target path = fs.target path := by
  rw [target, target, h]

theorem step_name {name : String} (h : IsName name) (fs : FileSystem) (here : Location) :
    fs.step here name =
      if 255 < name.utf8ByteSize then .error .nameTooLong
      else .ok (here ++ [name], fs.get? (here ++ [name])) := by
  rw [step, if_neg (not_or.2 ⟨h.ne_empty, h.ne_here⟩), if_neg h.ne_back]

theorem isAncestor_cons_iff {before names : List String} {name : String} :
    IsAncestor before (name :: names) ↔
      before = [] ∨ ∃ more, before = name :: more ∧ IsAncestor more names := by
  unfold IsAncestor
  cases before with
  | nil => simp
  | cons first more => simp only [List.cons_prefix_cons]; grind

theorem isAncestor_append_iff {ancestor here names : Location} :
    IsAncestor ancestor (here ++ names) ↔
      IsAncestor ancestor here ∨ ∃ before, ancestor = here ++ before ∧ IsAncestor before names := by
  induction here generalizing ancestor with
  | nil => simp [IsAncestor]
  | cons name here ih =>
    rw [List.cons_append, isAncestor_cons_iff, isAncestor_cons_iff]
    simp only [ih]
    grind

theorem follow_last_eq_ok_iff {last : String} (h : IsName last) :
    fs.follow here [last] = .ok (location, entry) ↔
      last.utf8ByteSize ≤ 255 ∧ location = here ++ [last] ∧ entry = fs.get? (here ++ [last]) := by
  rw [follow, step_name h]
  split
  · next hlong => simp [Nat.not_le.2 hlong]
  · next hshort => simp [Nat.not_lt.1 hshort, eq_comm]

/-- A name with others behind it has to lead to a directory, in which the others are followed. -/
theorem follow_cons_eq_ok_iff {name : String} (h : IsName name) {rest : List String}
    (hrest : rest ≠ []) :
    fs.follow here (name :: rest) = .ok (location, entry) ↔
      name.utf8ByteSize ≤ 255 ∧ fs.get? (here ++ [name]) = some .directory ∧
        fs.follow (here ++ [name]) rest = .ok (location, entry) := by
  rw [follow, step_name h]
  · by_cases hlong : 255 < name.utf8ByteSize
    · rw [if_pos hlong]
      simp [Nat.not_le.2 hlong]
    · have hsize := Nat.not_lt.1 hlong
      rw [if_neg hlong]
      cases fs.get? (here ++ [name]) with
      | none => simp
      | some found =>
        cases found with
        | file content => simp
        | directory => simp [hsize]
  · exact hrest

/-- Names are followed to their end if they are not too long and all on the way are directories. -/
theorem follow_eq_ok_iff {names : List String} (hnames : ∀ name ∈ names, IsName name)
    (hhere : fs.get? here = some .directory) :
    fs.follow here names = .ok (location, entry) ↔
      (∀ name ∈ names, name.utf8ByteSize ≤ 255) ∧
        (∀ before, IsAncestor before names → fs.get? (here ++ before) = some .directory) ∧
          location = here ++ names ∧ entry = fs.get? (here ++ names) := by
  induction names generalizing here with
  | nil => simp [follow, hhere, IsAncestor, eq_comm]
  | cons name rest ih =>
    obtain ⟨hname, hothers⟩ := List.forall_mem_cons.1 hnames
    by_cases hrest : rest = []
    · subst hrest
      have hancestor : ∀ before, IsAncestor before [name] ↔ before = [] := by
        intro before
        rw [isAncestor_cons_iff]
        simp [IsAncestor]
      rw [follow_last_eq_ok_iff hname]
      simp [hancestor, hhere]
    · -- the directory that the first name leads to is where the others start
      have hfirst : IsAncestor [name] (name :: rest) :=
        isAncestor_cons_iff.2 (.inr ⟨[], rfl, List.nil_prefix, Ne.symm hrest⟩)
      rw [follow_cons_eq_ok_iff hname hrest, List.forall_mem_cons]
      constructor
      · rintro ⟨hsize, hget, hfollow⟩
        obtain ⟨hsizes, hbelow, hlocation, hentry⟩ := (ih hothers hget).1 hfollow
        rw [List.append_assoc] at hlocation hentry
        refine ⟨⟨hsize, hsizes⟩, fun before hbefore => ?_, hlocation, hentry⟩
        rcases isAncestor_cons_iff.1 hbefore with rfl | ⟨more, rfl, hmore⟩
        · rw [List.append_nil, hhere]
        · rw [← hbelow more hmore, List.append_assoc, List.singleton_append]
      · rintro ⟨⟨hsize, hsizes⟩, hdirectories, hlocation, hentry⟩
        have hget := hdirectories _ hfirst
        refine ⟨hsize, hget, (ih hothers hget).2 ⟨hsizes, fun more hmore => ?_, ?_, ?_⟩⟩
        · rw [List.append_assoc]
          exact hdirectories _ (isAncestor_cons_iff.2 (.inr ⟨more, rfl, hmore⟩))
        · rw [hlocation, List.append_assoc, List.singleton_append]
        · rw [hentry, List.append_assoc, List.singleton_append]

/-- No file stands at the location or on the way to it. -/
def IsClear (fs : FileSystem) (location : Location) : Prop :=
  ∀ other, other <+: location → ∀ content, fs.get? other ≠ some (.file content)

theorem IsClear.of_prefix (h : fs.IsClear location) {before : Location}
    (hbefore : before <+: location) : fs.IsClear before :=
  fun other hother => h other (hother.trans hbefore)

theorem IsClear.addsDirectories (h : fs.IsClear location) (hadds : AddsDirectories fs fs') :
    fs'.IsClear location :=
  fun other hother content hfile => h other hother content ((hadds.file_iff other content).1 hfile)

/-- Names that are not too long, without a file in the way, lead somewhere unless a directory is
    missing. -/
theorem follow_of_isClear {names : List String} (hnames : ∀ name ∈ names, IsName name)
    (hsize : ∀ name ∈ names, name.utf8ByteSize ≤ 255) (hhere : fs.get? here = some .directory)
    (hclear : fs.IsClear (here ++ names)) :
    (∃ found, fs.follow here names = .ok found) ∨ fs.follow here names = .error .missing := by
  induction names generalizing here with
  | nil => exact .inl ⟨_, rfl⟩
  | cons name rest ih =>
    have hstep : fs.step here name = .ok (here ++ [name], fs.get? (here ++ [name])) := by
      have hname := hsize name (List.mem_cons_self ..)
      rw [step_name (hnames name (List.mem_cons_self ..)), if_neg (by omega)]
    cases rest with
    | nil => exact .inl ⟨_, hstep⟩
    | cons next rest =>
      rw [follow, hstep]
      · cases hget : fs.get? (here ++ [name]) with
        | none => exact .inr rfl
        | some found =>
          cases found with
          | file content =>
            refine absurd hget (hclear _ ?_ content)
            exact (List.prefix_append_right_inj here).2 (by simp)
          | directory =>
            refine ih (fun n hn => hnames n (List.mem_cons_of_mem _ hn))
              (fun n hn => hsize n (List.mem_cons_of_mem _ hn)) hget ?_
            rwa [List.append_assoc]
      · simp

end FileSystem

namespace Path.IsDownward

open FileSystem

variable {fs : FileSystem} {location : Location} {entry : Option Entry} {path : Path}

theorem noNul_of_mem_route (h : path.IsDownward) {step : String} (hstep : step ∈ path.route) :
    '\x00' ∉ step.toList := by
  rcases Path.mem_route hstep with rfl | rfl | hname
  · decide
  · decide
  · exact (h.names step hname).noNul

/-- The system tries a downward path by following its names. -/
theorem locate_eq (h : path.IsDownward) (fs : FileSystem) :
    fs.locate path.route =
      if 4096 ≤ path.text.utf8ByteSize then .error (.refused .nameTooLong)
      else (fs.follow fs.workingDirectory path.names).mapError .refused := by
  have hnul : ¬(path.route.any fun name => '\x00' ∈ name.toList) = true := by
    simpa using fun step (hstep : step ∈ path.route) => h.noNul_of_mem_route hstep
  obtain ⟨slashes, names⟩ := path
  obtain rfl : slashes = 0 := h.relative
  cases names with
  | nil =>
    unfold FileSystem.locate
    rw [if_neg hnul]
    rfl
  | cons name rest =>
    have hname : name ≠ "" := (h.names name (List.mem_cons_self ..)).ne_empty
    rw [FileSystem.locate, if_neg hnul]
    · rfl
    · simp [Path.route, hname]
    · simp [Path.route, hname]

/-- **A downward path in a tree** leads to its target if it is not too long and all that lead to the
    target are directories, and nowhere else. -/
theorem locate_eq_ok_iff (h : path.IsDownward) (hfs : fs.IsTree) :
    fs.locate path.route = .ok (location, entry) ↔
      path.Fits ∧ (∀ ancestor, IsAncestor ancestor (fs.target path) →
        fs.get? ancestor = some .directory) ∧
        location = fs.target path ∧ entry = fs.get? (fs.target path) := by
  rw [h.locate_eq]
  split
  · next hlong =>
    refine iff_of_false (by simp) fun hfits => ?_
    exact absurd hfits.1.text (by omega)
  · next hshort =>
    have hancestors : (∀ before, IsAncestor before path.names →
        fs.get? (fs.workingDirectory ++ before) = some .directory) ↔
        ∀ ancestor, IsAncestor ancestor (fs.target path) → fs.get? ancestor = some .directory := by
      constructor
      · intro hbefore ancestor hancestor
        -- what leads to the working directory is part of the tree
        rcases isAncestor_append_iff.1 hancestor with habove | ⟨before, rfl, hnames⟩
        · exact hfs.directory_of_isAncestor habove (by simp [hfs.workingDirectory])
        · exact hbefore before hnames
      · intro hall before hbefore
        exact hall _ (isAncestor_append_iff.2 (.inr ⟨before, rfl, hbefore⟩))
    have hfits : path.Fits ↔ ∀ name ∈ path.names, name.utf8ByteSize ≤ 255 :=
      ⟨fun hfits => hfits.names, fun hnames => ⟨hnames, by omega⟩⟩
    rw [mapError_eq_ok, follow_eq_ok_iff h.names hfs.workingDirectory, hancestors, hfits]
    rfl

/-- What is tried and not found is missing, if the path fits and no file is in the way. -/
theorem locate_of_isClear (h : path.IsDownward) (hfs : fs.IsTree) (hfits : path.Fits)
    (hclear : fs.IsClear (fs.target path)) :
    (∃ found, fs.locate path.route = .ok found) ∨
      fs.locate path.route = .error (.refused .missing) := by
  have htext := hfits.text
  rw [h.locate_eq, if_neg (by omega)]
  rcases follow_of_isClear h.names hfits.names hfs.workingDirectory hclear with ⟨found, hfound⟩ | hmissing
  · exact .inl ⟨found, mapError_eq_ok.2 hfound⟩
  · exact .inr (by rw [hmissing]; rfl)

/-- The system never objects to a NUL in a downward path. -/
theorem exists_refused_of_locate (h : path.IsDownward) {cause : AccessError}
    (hlocate : fs.locate path.route = .error cause) : ∃ failure, cause = .refused failure := by
  cases cause with
  | refused failure => exact ⟨failure, rfl⟩
  | embeddedNul =>
    obtain ⟨step, hstep, hnul⟩ := locate_eq_embeddedNul_iff.1 hlocate
    exact absurd hnul (h.noNul_of_mem_route hstep)

end Path.IsDownward

namespace FileSystem

variable {fs fs' : FileSystem} {path : Path}

/-! ## Making directories along a path -/

/-- Makes a directory, unless it is there. Nothing that leads to it is made. -/
def ensureDirectory (fs : FileSystem) (path : Path) : Except PathError Unit × FileSystem :=
  match fs.makeDirectory path.route with
  | .ok fs => (.ok (), fs)
  | .error cause => fs.allowExisting path cause

theorem makeDirectories_nil (fs : FileSystem) (slashes : Nat) :
    fs.makeDirectories ⟨slashes, []⟩ = fs.ensureDirectory ⟨slashes, []⟩ := rfl

/-- A directory is made at once, unless one that leads to it is missing. Then those are made first,
    and what comes of this is the end of it or another try. -/
theorem makeDirectories_concat (fs : FileSystem) (slashes : Nat) (names : List String)
    (last : String) {path : Path} (hpath : path = ⟨slashes, names ++ [last]⟩) :
    (fs.makeDirectory path.route ≠ .error (.refused .missing) ∧
        fs.makeDirectories path = fs.ensureDirectory path) ∨
      (∃ e after, fs.makeDirectories ⟨slashes, names⟩ = (.error e, after) ∧
        fs.makeDirectories path = (.error e, after)) ∨
      ∃ after, fs.makeDirectories ⟨slashes, names⟩ = (.ok (), after) ∧
        fs.makeDirectories path = after.ensureDirectory path := by
  subst hpath
  have hnames : (names ++ [last]).reverse = last :: names.reverse := by simp
  have hpath : (⟨slashes, (last :: names.reverse).reverse⟩ : Path) = ⟨slashes, names ++ [last]⟩ := by
    simp
  rw [makeDirectories, hnames, makeDirectoriesBackwards, hpath]
  split
  · next hmade => exact .inl ⟨by simp [hmade], by rw [ensureDirectory, hmade]⟩
  · split
    · next hfailed => exact .inr (.inl ⟨_, _, hfailed, rfl⟩)
    · next hdone => exact .inr (.inr ⟨_, hdone, rfl⟩)
  · next cause hother hfailed =>
    exact .inl ⟨by rw [hfailed]; simpa using hother, by rw [ensureDirectory, hfailed]⟩

/-- A directory is there in the end if no file is in its place. -/
theorem ensureDirectory_of_locate {found : Location × Option Entry}
    (hfound : fs.locate path.route = .ok found) (hfile : ∀ content, found.2 ≠ some (.file content)) :
    ∃ after, fs.ensureDirectory path = (.ok (), after) := by
  obtain ⟨location, entry⟩ := found
  unfold ensureDirectory makeDirectory
  rw [hfound]
  match entry, hfound, hfile with
  | none, _, _ => exact ⟨_, rfl⟩
  | some (.file content), _, hfile => exact absurd rfl (hfile content)
  | some .directory, hfound, _ =>
    have hdirectory : fs.isDirectory path.route = true := by rw [isDirectory, status, hfound]
    exact ⟨fs, if_pos hdirectory⟩

/-- The file system has grown at most by directories that lead to a location or stand there. -/
structure GrowsTo (location : Location) (before after : FileSystem) : Prop where
  tree : after.IsTree
  workingDirectory : after.workingDirectory = before.workingDirectory
  isPrefix : ∀ other, before.get? other = none → after.get? other = some .directory →
    other <+: location

end FileSystem

namespace Path.IsDownward

open FileSystem

variable {fs after : FileSystem} {path : Path}

/-- A path without its last name. -/
theorem dropLast {names : List String} {last : String}
    (h : (⟨0, names ++ [last]⟩ : Path).IsDownward) : (⟨0, names⟩ : Path).IsDownward :=
  ⟨rfl, fun name hname => h.names name (List.mem_append_left _ hname)⟩

/-- A directory is made at the target of the path, and nothing stood there. -/
theorem makeDirectory_eq_ok (h : path.IsDownward) (hfs : fs.IsTree)
    (hmade : fs.makeDirectory path.route = .ok after) :
    fs.target path ≠ [] ∧ after = fs.put (fs.target path) .directory := by
  obtain ⟨location, hlocate, hafter⟩ := makeDirectory_eq_ok_iff.1 hmade
  obtain ⟨-, -, rfl, hnone⟩ := (h.locate_eq_ok_iff hfs).1 hlocate
  refine ⟨fun hroot => ?_, hafter⟩
  rw [hroot] at hnone
  cases hnone

theorem directory_of_isDirectory (h : path.IsDownward) (hfs : fs.IsTree)
    (hdirectory : fs.isDirectory path.route = true) :
    fs.get? (fs.target path) = some .directory := by
  unfold isDirectory status at hdirectory
  split at hdirectory
  · next hstatus =>
    split at hstatus
    · cases hstatus
    · next hlocate =>
      obtain rfl := Except.ok.inj hstatus
      exact ((h.locate_eq_ok_iff hfs).1 hlocate).2.2.2.symm
    · cases hstatus
  · cases hdirectory

theorem directory_of_ensureDirectory (h : path.IsDownward) (hfs : fs.IsTree)
    (hdone : fs.ensureDirectory path = (.ok (), after)) :
    after.get? (fs.target path) = some .directory := by
  unfold ensureDirectory at hdone
  split at hdone
  · next made hmade =>
    obtain ⟨-, rfl⟩ := Prod.mk.inj hdone
    obtain ⟨hroot, rfl⟩ := h.makeDirectory_eq_ok hfs hmade
    exact get?_put_self fs hroot _
  · unfold allowExisting at hdone
    split at hdone
    · next hdirectory =>
      obtain ⟨-, rfl⟩ := Prod.mk.inj hdone
      exact h.directory_of_isDirectory hfs hdirectory
    · cases (Prod.mk.inj hdone).1

theorem refused_of_ensureDirectory (h : path.IsDownward) {e : PathError}
    (hfailed : fs.ensureDirectory path = (.error e, after)) :
    ∃ failure, e.cause = .refused failure := by
  unfold ensureDirectory at hfailed
  split at hfailed
  · cases (Prod.mk.inj hfailed).1
  next cause hmade =>
  unfold allowExisting at hfailed
  split at hfailed
  · cases (Prod.mk.inj hfailed).1
  · obtain rfl := Except.error.inj (Prod.mk.inj hfailed).1
    unfold makeDirectory at hmade
    split at hmade
    · next hlocate =>
      obtain rfl := Except.error.inj hmade
      exact h.exists_refused_of_locate hlocate
    · exact ⟨_, (Except.error.inj hmade).symm⟩
    · cases hmade

/-- What goes wrong while directories are made is refused by the system. -/
theorem refused_of_makeDirectories (h : path.IsDownward) {e : PathError}
    (hfailed : fs.makeDirectories path = (.error e, after)) :
    ∃ failure, e.cause = .refused failure := by
  obtain ⟨slashes, names⟩ := path
  obtain rfl : slashes = 0 := h.relative
  induction names using List.reverseRecOn generalizing after with
  | nil =>
    rw [makeDirectories_nil] at hfailed
    exact h.refused_of_ensureDirectory hfailed
  | append_singleton before last ih =>
    rcases makeDirectories_concat fs 0 before last rfl with
      ⟨-, hmade⟩ | ⟨e', made, hancestors, hmade⟩ | ⟨made, -, hmade⟩
    · exact h.refused_of_ensureDirectory (hmade.symm.trans hfailed)
    · obtain ⟨he, -⟩ := Prod.mk.inj (hmade.symm.trans hfailed)
      rw [he] at hancestors
      exact ih h.dropLast hancestors
    · exact h.refused_of_ensureDirectory (hmade.symm.trans hfailed)

/-- Making directories puts them on the way to the path. -/
theorem growsTo_makeDirectories (h : path.IsDownward) (hfs : fs.IsTree) :
    GrowsTo (fs.target path) fs (fs.makeDirectories path).2 := by
  have hstart : GrowsTo (fs.target path) fs fs :=
    ⟨hfs, rfl, fun other hnone hnew => by rw [hnone] at hnew; cases hnew⟩
  refine makeDirectoriesBackwards_keeps (fun before hbefore made after hgrown hmade => ?_) hstart
  obtain ⟨more, hnames⟩ : before.reverse <+: path.names := by
    simpa using List.reverse_prefix.2 hbefore
  have hpath : (⟨path.slashes, before.reverse⟩ : Path).IsDownward :=
    ⟨h.relative, fun name hname => h.names name (hnames ▸ List.mem_append_left _ hname)⟩
  obtain ⟨-, rfl⟩ := hpath.makeDirectory_eq_ok hgrown.tree hmade
  refine ⟨hgrown.tree.makeDirectory hmade, hgrown.workingDirectory, fun other hnone hnew => ?_⟩
  by_cases hother : other = made.target ⟨path.slashes, before.reverse⟩
  · rw [hother, target_congr hgrown.workingDirectory]
    exact (List.prefix_append_right_inj _).2 ⟨more, hnames⟩
  · rw [get?_put_of_ne made hother] at hnew
    exact hgrown.isPrefix other hnone hnew

theorem makeDirectories_target (fs : FileSystem) (ancestors path : Path) :
    (fs.makeDirectories ancestors).2.target path = fs.target path :=
  target_congr (addsDirectories_makeDirectories fs ancestors).workingDirectory path

/-- After directories are made, the last one is there. -/
theorem directory_of_makeDirectories (h : path.IsDownward) (hfs : fs.IsTree)
    (hdone : fs.makeDirectories path = (.ok (), after)) :
    after.get? (fs.target path) = some .directory := by
  obtain ⟨slashes, names⟩ := path
  cases names using List.reverseRecOn with
  | nil =>
    rw [makeDirectories_nil] at hdone
    exact h.directory_of_ensureDirectory hfs hdone
  | append_singleton before last =>
    rcases makeDirectories_concat fs slashes before last rfl with
      ⟨-, hmade⟩ | ⟨e, made, -, hmade⟩ | ⟨made, hancestors, hmade⟩
    · exact h.directory_of_ensureDirectory hfs (hmade.symm.trans hdone)
    · cases (Prod.mk.inj (hmade.symm.trans hdone)).1
    · have htree := hfs.makeDirectories ⟨slashes, before⟩
      rw [← makeDirectories_target fs ⟨slashes, before⟩]
      rw [hancestors] at htree ⊢
      exact h.directory_of_ensureDirectory htree (hmade.symm.trans hdone)

/-- In a directory that is there the system finds the name or finds that there is none. -/
theorem exists_locate_of_directory {names : List String} {last : String}
    (h : (⟨0, names ++ [last]⟩ : Path).IsDownward) (hfs : fs.IsTree)
    (hfits : (⟨0, names ++ [last]⟩ : Path).Fits)
    (hdirectory : fs.get? (fs.target ⟨0, names⟩) = some .directory) :
    ∃ found, fs.locate (⟨0, names ++ [last]⟩ : Path).route = .ok found := by
  refine ⟨(_, _), (h.locate_eq_ok_iff hfs).2 ⟨hfits, fun ancestor hancestor => ?_, rfl, rfl⟩⟩
  have hbelow : ancestor <+: fs.target ⟨0, names⟩ := by
    rw [target, ← List.append_assoc, isAncestor_concat_iff] at hancestor
    exact hancestor
  by_cases heq : ancestor = fs.target ⟨0, names⟩
  · rw [heq, hdirectory]
  · exact hfs.directory_of_isAncestor ⟨hbelow, heq⟩ (by simp [hdirectory])

/-- What is found where no file is in the way is a directory, or becomes one. -/
theorem exists_ensureDirectory_eq_ok (h : path.IsDownward) (hfs : fs.IsTree)
    (hclear : fs.IsClear (fs.target path)) {found : Location × Option Entry}
    (hfound : fs.locate path.route = .ok found) : ∃ after, fs.ensureDirectory path = (.ok (), after) := by
  obtain ⟨-, -, -, hentry⟩ := (h.locate_eq_ok_iff hfs).1 hfound
  refine ensureDirectory_of_locate hfound fun content hfile => ?_
  rw [hfile] at hentry
  exact hclear _ (List.prefix_refl _) content hentry.symm

/-- **Directories can be made** along a path that fits and has no file in its way. -/
theorem exists_makeDirectories_eq_ok (h : path.IsDownward) (hfs : fs.IsTree) (hfits : path.Fits)
    (hclear : fs.IsClear (fs.target path)) : ∃ after, fs.makeDirectories path = (.ok (), after) := by
  obtain ⟨slashes, names⟩ := path
  obtain rfl : slashes = 0 := h.relative
  induction names using List.reverseRecOn with
  | nil =>
    rw [makeDirectories_nil]
    exact h.exists_ensureDirectory_eq_ok hfs hclear (by rw [h.locate_eq]; rfl)
  | append_singleton before last ih =>
    have hprefix : fs.target ⟨0, before⟩ <+: fs.target ⟨0, before ++ [last]⟩ :=
      (List.prefix_append_right_inj _).2 (List.prefix_append ..)
    obtain ⟨made, hancestors⟩ := ih h.dropLast hfits.dropLast (hclear.of_prefix hprefix)
    rcases makeDirectories_concat fs 0 before last rfl with
      ⟨htried, hdone⟩ | ⟨e, failed, hfailed, -⟩ | ⟨made', hancestors', hdone⟩
    · rw [hdone]
      rcases h.locate_of_isClear hfs hfits hclear with ⟨found, hfound⟩ | hmissing
      · exact h.exists_ensureDirectory_eq_ok hfs hclear hfound
      · exact absurd (by rw [makeDirectory, hmissing]) htried
    · cases (Prod.mk.inj (hfailed.symm.trans hancestors)).1
    · -- those before it were missing, and now they are there
      have hdirectory := h.dropLast.directory_of_makeDirectories hfs hancestors'
      have htree := hfs.makeDirectories ⟨0, before⟩
      have hadds := addsDirectories_makeDirectories fs ⟨0, before⟩
      rw [← makeDirectories_target fs ⟨0, before⟩] at hdirectory hclear
      rw [hancestors'] at hdirectory hclear htree hadds
      rw [hdone]
      obtain ⟨found, hfound⟩ := h.exists_locate_of_directory htree hfits hdirectory
      exact h.exists_ensureDirectory_eq_ok htree (hclear.addsDirectories hadds) hfound

end Path.IsDownward

end ApiScribe

import ApiScribe.Delivery
import ApiScribe.Proofs.Except

set_option autoImplicit false

/-! # What operations change in a file system

Making directories puts directories where nothing stood, and changes nothing else, even when it
fails half-way (`AddsDirectories`). Writing a file changes what stands at one location, the one that
its route leads to. The route still leads there afterwards, because the steps before the last go
through directories, and no directory stands where a file is written. So a client that is delivered
to a file is found there, and every other file is as it was (`writesFile_of_deliver`). -/

namespace ApiScribe.FileSystem

variable {fs fs' : FileSystem} {here location : Location} {route : Route} {entry : Option Entry}

/-! ## Where routes lead -/

/-- What a step finds, if it is no directory, stands where the step leads. -/
theorem step_eq_get? {name : String} (h : fs.step here name = .ok (location, entry))
    (hentry : entry ≠ some .directory) : entry = fs.get? location := by
  unfold step at h
  split at h
  · exact absurd (Prod.mk.inj (Except.ok.inj h)).2.symm hentry
  split at h
  · exact absurd (Prod.mk.inj (Except.ok.inj h)).2.symm hentry
  split at h
  · cases h
  · obtain ⟨rfl, rfl⟩ := Prod.mk.inj (Except.ok.inj h)
    rfl

theorem follow_eq_get? (h : fs.follow here route = .ok (location, entry))
    (hentry : entry ≠ some .directory) : entry = fs.get? location := by
  fun_induction follow fs here route with
  | case1 => exact absurd (Prod.mk.inj (Except.ok.inj h)).2.symm hentry
  | case2 here last => exact step_eq_get? h hentry
  | case3 => cases h
  | case4 here name rest _ next hstep ih => exact ih h
  | case5 => cases h
  | case6 => cases h

/-- A route that leads anywhere is followed from the root or from the working directory on, and from
    the same place in every file system with the same working directory. -/
theorem exists_follow_of_locate {found : Location × Option Entry}
    (h : fs.locate route = .ok found) :
    ∃ here rest, (here = [] ∨ here = fs.workingDirectory) ∧ fs.follow here rest = .ok found ∧
      ∀ (fs' : FileSystem) (found' : Location × Option Entry),
        fs'.workingDirectory = fs.workingDirectory →
        fs'.follow here rest = .ok found' → fs'.locate route = .ok found' := by
  unfold locate at h
  split at h
  · cases h
  next hnul =>
  split at h
  · cases h
  next hlength =>
  split at h
  · cases h
  · next rest hempty =>
    refine ⟨[], rest, .inl rfl, mapError_eq_ok.1 h, ?_⟩
    intro fs' found' _ hfollow
    rw [locate, if_neg hnul, if_neg hlength, hfollow]
    · rfl
    · exact hempty
  · next hempty hroot =>
    refine ⟨fs.workingDirectory, route, .inr rfl, mapError_eq_ok.1 h, ?_⟩
    intro fs' found' hdirectory hfollow
    rw [locate, if_neg hnul, if_neg hlength, hdirectory, hfollow]
    · rfl
    · exact hempty
    · exact hroot

theorem locate_eq_get? (h : fs.locate route = .ok (location, entry))
    (hentry : entry ≠ some .directory) : entry = fs.get? location := by
  obtain ⟨here, rest, -, hfollow, -⟩ := exists_follow_of_locate h
  exact follow_eq_get? hfollow hentry

/-! ## What operations do -/

/-- A directory is made where a route leads and nothing stands. -/
theorem makeDirectory_eq_ok_iff :
    fs.makeDirectory route = .ok fs' ↔
      ∃ location, fs.locate route = .ok (location, none) ∧ fs' = fs.put location .directory := by
  unfold makeDirectory
  split
  · simp_all
  · simp_all
  · next location hlocate => simp [hlocate, eq_comm]

/-- A file is written where a route leads and no directory stands. -/
theorem writeFile_eq_ok_iff {content : ByteArray} :
    fs.writeFile route content = .ok fs' ↔
      ∃ location entry, fs.locate route = .ok (location, entry) ∧ entry ≠ some .directory ∧
        fs' = fs.put location (.file content) := by
  unfold writeFile
  split
  · simp_all
  · simp_all
  · next location entry hentry hlocate =>
    constructor
    · intro hwritten
      exact ⟨location, entry, hlocate, hentry, (Except.ok.inj hwritten).symm⟩
    · rintro ⟨location', entry', hlocate', -, rfl⟩
      rw [hlocate] at hlocate'
      obtain ⟨rfl, -⟩ := Prod.mk.inj (Except.ok.inj hlocate')
      rfl

/-- A delivery ends with the directories, or with the file that is written after them. -/
theorem deliver_cases (fs : FileSystem) (path : Path) (text : LooseText) :
    (∃ e made, fs.makeDirectories path.parent = (.error e, made) ∧
        fs.deliver path text = (.error (.path e), made)) ∨
      ∃ made, fs.makeDirectories path.parent = (.ok (), made) ∧
        ((∃ cause, made.writeFile path.route (Text.fileContent text) = .error cause ∧
            fs.deliver path text = (.error (.path ⟨path, cause⟩), made)) ∨
          ∃ after, made.writeFile path.route (Text.fileContent text) = .ok after ∧
            fs.deliver path text = (endOfWriting path text, after)) := by
  unfold deliver
  split
  · next hfailed => exact .inl ⟨_, _, hfailed, rfl⟩
  next made hmade =>
  refine .inr ⟨made, hmade, ?_⟩
  split
  · next hrefused => exact .inl ⟨_, hrefused, rfl⟩
  · next hwritten => exact .inr ⟨_, hwritten, rfl⟩

/-- Once the file is written the delivery succeeds, or the text has no encoding and the file is
    empty. -/
theorem endOfWriting_cases (path : Path) (text : LooseText) :
    (∃ bytes, Text.encodeUtf8 text = .ok bytes ∧ Text.fileContent text = bytes ∧
        endOfWriting path text = .ok (.written path.text bytes.size)) ∨
      ∃ fault, Text.encodeUtf8 text = .error fault ∧ Text.fileContent text = .empty ∧
        endOfWriting path text = .error (.encoding fault) := by
  unfold endOfWriting Text.fileContent
  cases hencoded : Text.encodeUtf8 text with
  | ok bytes => exact .inl ⟨bytes, rfl, rfl, rfl⟩
  | error fault => exact .inr ⟨fault, rfl, rfl, rfl⟩

/-! ## Routes after an entry is put somewhere -/

/-- A step into a directory is the same after an entry is put where no directory stood. -/
theorem step_put {name : String} {next : Location}
    (h : fs.step here name = .ok (next, some .directory))
    (hlocation : fs.get? location ≠ some .directory) (new : Entry) :
    (fs.put location new).step here name = .ok (next, some .directory) := by
  unfold step at h ⊢
  split at h
  · next hstay => rw [if_pos hstay, h]
  next hstay =>
  split at h
  · next hup => rw [if_neg hstay, if_pos hup, h]
  next hup =>
  split at h
  · cases h
  next hlength =>
  obtain ⟨rfl, hget⟩ := Prod.mk.inj (Except.ok.inj h)
  have hne : here ++ [name] ≠ location := by
    rintro rfl
    exact hlocation hget
  rw [if_neg hstay, if_neg hup, if_neg hlength, get?_put_of_ne fs hne, hget]

/-- A route to something else than a directory leads to the entry that is put there. -/
theorem follow_put (h : fs.follow here route = .ok (location, entry))
    (hentry : entry ≠ some .directory) (new : Entry) :
    (fs.put location new).follow here route = .ok (location, some new) := by
  have hlocation : fs.get? location ≠ some .directory := by
    rw [← follow_eq_get? h hentry]
    exact hentry
  have hroot : location ≠ [] := by
    rintro rfl
    exact hlocation rfl
  fun_induction follow fs here route with
  | case1 => exact absurd (Prod.mk.inj (Except.ok.inj h)).2.symm hentry
  | case2 here last =>
    rw [follow]
    unfold step at h ⊢
    split at h
    · exact absurd (Prod.mk.inj (Except.ok.inj h)).2.symm hentry
    next hstay =>
    split at h
    · exact absurd (Prod.mk.inj (Except.ok.inj h)).2.symm hentry
    next hup =>
    split at h
    · cases h
    next hlength =>
    obtain ⟨rfl, -⟩ := Prod.mk.inj (Except.ok.inj h)
    rw [if_neg hstay, if_neg hup, if_neg hlength, get?_put_self fs hroot]
  | case3 => cases h
  | case4 here name rest hrest next hstep ih =>
    rw [follow, step_put hstep hlocation new]
    · exact ih h
    · exact hrest
  | case5 => cases h
  | case6 => cases h

theorem locate_put (h : fs.locate route = .ok (location, entry)) (hentry : entry ≠ some .directory)
    (new : Entry) : (fs.put location new).locate route = .ok (location, some new) := by
  obtain ⟨here, rest, -, hfollow, hlocate⟩ := exists_follow_of_locate h
  exact hlocate _ _ rfl (follow_put hfollow hentry new)

/-! ## Making directories -/

/-- Some directories stand where nothing stood, and everything else is the same. -/
structure AddsDirectories (before after : FileSystem) : Prop where
  workingDirectory : after.workingDirectory = before.workingDirectory
  entries : ∀ location, after.get? location = before.get? location ∨
    before.get? location = none ∧ after.get? location = some .directory

namespace AddsDirectories

theorem refl (fs : FileSystem) : AddsDirectories fs fs := ⟨rfl, fun _ => .inl rfl⟩

theorem trans {a b c : FileSystem} (hab : AddsDirectories a b) (hbc : AddsDirectories b c) :
    AddsDirectories a c := by
  refine ⟨hbc.workingDirectory.trans hab.workingDirectory, fun location => ?_⟩
  rcases hbc.entries location with hsame | ⟨hnone, hnew⟩
  · rw [hsame]
    exact hab.entries location
  · rcases hab.entries location with hsame | ⟨-, hdirectory⟩
    · exact .inr ⟨by rw [← hsame, hnone], hnew⟩
    · rw [hnone] at hdirectory
      cases hdirectory

/-- Files are neither made nor changed. -/
theorem file_iff {before after : FileSystem} (h : AddsDirectories before after)
    (location : Location) (content : ByteArray) :
    after.get? location = some (.file content) ↔ before.get? location = some (.file content) := by
  rcases h.entries location with hsame | ⟨hnone, hnew⟩
  · rw [hsame]
  · simp [hnone, hnew]

end AddsDirectories

theorem addsDirectories_of_makeDirectory (h : fs.makeDirectory route = .ok fs') :
    AddsDirectories fs fs' := by
  obtain ⟨location, hlocate, rfl⟩ := makeDirectory_eq_ok_iff.1 h
  have hnone : fs.get? location = none := (locate_eq_get? hlocate (by simp)).symm
  have hroot : location ≠ [] := by
    rintro rfl
    cases hnone
  refine ⟨rfl, fun other => ?_⟩
  by_cases hother : other = location
  · rw [hother]
    exact .inr ⟨hnone, get?_put_self fs hroot _⟩
  · exact .inl (get?_put_of_ne fs hother _)

theorem allowExisting_snd (fs : FileSystem) (path : Path) (cause : AccessError) :
    (fs.allowExisting path cause).2 = fs := by
  unfold allowExisting
  split <;> rfl

/-- What holds before directories are made and outlasts the making of each one holds in the end,
    whether that is a success or not. The directories are those whose names are given from the last
    to the first, or the first of these names. -/
theorem makeDirectoriesBackwards_keeps {P : FileSystem → Prop} {slashes : Nat} {names : List String}
    (hmake : ∀ before, before <:+ names → ∀ fs fs', P fs →
      fs.makeDirectory (⟨slashes, before.reverse⟩ : Path).route = .ok fs' → P fs')
    (h : P fs) : P (fs.makeDirectoriesBackwards slashes names).2 := by
  induction names with
  | nil =>
    rw [makeDirectoriesBackwards]
    split
    · next hmade => exact hmake [] (List.suffix_refl _) _ _ h hmade
    · rw [allowExisting_snd]
      exact h
  | cons last before ih =>
    have hlast := hmake (last :: before) (List.suffix_refl _)
    rw [makeDirectoriesBackwards]
    split
    · next hmade => exact hlast _ _ h hmade
    · -- the ancestors first, then the directory itself
      have hancestors := ih fun names hnames => hmake names (hnames.trans (List.suffix_cons ..))
      split
      · next hfailed =>
        rw [hfailed] at hancestors
        exact hancestors
      next hdone =>
      rw [hdone] at hancestors
      split
      · next hmade => exact hlast _ _ hancestors hmade
      · rw [allowExisting_snd]
        exact hancestors
    · rw [allowExisting_snd]
      exact h

/-- **Making directories** adds directories at most, whether it succeeds or not. -/
theorem addsDirectories_makeDirectories (fs : FileSystem) (path : Path) :
    AddsDirectories fs (fs.makeDirectories path).2 :=
  makeDirectoriesBackwards_keeps
    (fun _ _ _ _ hadds hmade => hadds.trans (addsDirectories_of_makeDirectory hmade)) (.refl fs)

/-! ## Writing files -/

/-- The route leads to a file with the content, and every other file is as before. -/
def WritesFile (before after : FileSystem) (route : Route) (content : ByteArray) : Prop :=
  ∃ location, after.locate route = .ok (location, some (.file content)) ∧
    ∀ other, other ≠ location → ∀ old,
      after.get? other = some (.file old) ↔ before.get? other = some (.file old)

theorem writesFile_of_writeFile {content : ByteArray} (h : fs.writeFile route content = .ok fs') :
    WritesFile fs fs' route content := by
  obtain ⟨location, entry, hlocate, hdirectory, rfl⟩ := writeFile_eq_ok_iff.1 h
  refine ⟨location, locate_put hlocate hdirectory _, fun other hother old => ?_⟩
  rw [get?_put_of_ne fs hother]

/-- **A delivered client** is in its file, and every other file is as before. -/
theorem writesFile_of_deliver {path : Path} {text : LooseText} {event : Event}
    (h : fs.deliver path text = (.ok event, fs')) :
    ∃ bytes, Text.encodeUtf8 text = .ok bytes ∧ WritesFile fs fs' path.route bytes := by
  have hadds := addsDirectories_makeDirectories fs path.parent
  rcases deliver_cases fs path text with ⟨e, made, -, heq⟩ | ⟨made, hmade, hend⟩
  · cases (Prod.mk.inj (heq.symm.trans h)).1
  rcases hend with ⟨cause, -, heq⟩ | ⟨written, hwritten, heq⟩
  · cases (Prod.mk.inj (heq.symm.trans h)).1
  rw [hmade] at hadds
  obtain ⟨hend, rfl⟩ := Prod.mk.inj (heq.symm.trans h)
  obtain ⟨bytes, hbytes, hcontent, -⟩ | ⟨fault, -, -, hfault⟩ := endOfWriting_cases path text
  case inr => cases hfault.symm.trans hend
  rw [hcontent] at hwritten
  obtain ⟨location, hlocate, hothers⟩ := writesFile_of_writeFile hwritten
  refine ⟨bytes, hbytes, location, hlocate, fun other hother old => ?_⟩
  rw [hothers other hother old, hadds.file_iff]

end ApiScribe.FileSystem

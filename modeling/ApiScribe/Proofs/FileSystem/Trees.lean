import ApiScribe.Proofs.FileSystem.Changes
import Mathlib.Data.List.Induction

set_option autoImplicit false

/-! # File systems that are trees

The entries of a file system are kept under their locations, and nothing in this says that an entry
stands in a directory. `IsTree` says it. A route never leads past anything but directories, so what
is put at its end stands in a directory too, and making directories and writing files keep the tree
(`IsTree.makeDirectory`, `IsTree.writeFile`). The working directory does not matter here, nor do
steps back. -/

namespace ApiScribe.FileSystem

variable {fs fs' : FileSystem} {here location : Location} {route : Route} {entry : Option Entry}

/-- The location of a directory that leads to another location. -/
def IsAncestor (ancestor location : Location) : Prop := ancestor <+: location ∧ ancestor ≠ location

/-- Every entry stands in a directory, and so does whoever works in the file system. -/
structure IsTree (fs : FileSystem) : Prop where
  parent : ∀ location name, fs.get? (location ++ [name]) ≠ none → fs.get? location = some .directory
  workingDirectory : fs.get? fs.workingDirectory = some .directory

theorem isAncestor_concat_iff {ancestor location : Location} {name : String} :
    IsAncestor ancestor (location ++ [name]) ↔ ancestor <+: location := by
  unfold IsAncestor
  rw [List.prefix_concat_iff]
  constructor
  · rintro ⟨rfl | h, hne⟩
    · exact absurd rfl hne
    · exact h
  · intro h
    refine ⟨.inr h, ?_⟩
    rintro rfl
    have hle := h.length_le
    rw [List.length_append, List.length_singleton] at hle
    omega

/-- Entries of a list that stand in directories make a tree. -/
theorem isTree_of_entries
    (hentries : ∀ item ∈ fs.entries, item.1 ≠ [] → fs.get? item.1.dropLast = some .directory)
    (hworking : fs.get? fs.workingDirectory = some .directory) : fs.IsTree := by
  refine ⟨fun location name h => ?_, hworking⟩
  obtain ⟨found, hfound⟩ := Option.ne_none_iff_exists'.1 h
  have hget : fs.entries.get? (location ++ [name]) = some found := by simpa [get?] using hfound
  simpa using hentries _ (Table.mem_of_get? hget)

namespace IsTree

/-- All that leads to an entry are directories. -/
theorem directory_of_isAncestor (h : fs.IsTree) {ancestor : Location}
    (hancestor : IsAncestor ancestor location) (hlocation : fs.get? location ≠ none) :
    fs.get? ancestor = some .directory := by
  induction location using List.reverseRecOn with
  | nil => exact absurd (List.prefix_nil.1 hancestor.1) hancestor.2
  | append_singleton location name ih =>
    have hparent := h.parent location name hlocation
    by_cases heq : ancestor = location
    · rw [heq, hparent]
    · exact ih ⟨isAncestor_concat_iff.1 hancestor, heq⟩ (by simp [hparent])

theorem directory_dropLast (h : fs.IsTree) (hhere : fs.get? here = some .directory) :
    fs.get? here.dropLast = some .directory := by
  by_cases hroot : here = []
  · rw [hroot]
    rfl
  · refine h.directory_of_isAncestor ⟨here.dropLast_prefix, fun heq => ?_⟩ (by simp [hhere])
    have hlength := congrArg List.length heq
    have hpos := List.length_pos_iff.2 hroot
    rw [List.length_dropLast] at hlength
    omega

/-! ## Where routes end -/

/-- A step from a directory to a directory finds one there. -/
theorem directory_of_step (h : fs.IsTree) (hhere : fs.get? here = some .directory) {name : String}
    {next : Location} (hstep : fs.step here name = .ok (next, some .directory)) :
    fs.get? next = some .directory := by
  unfold step at hstep
  split at hstep
  · obtain ⟨rfl, -⟩ := Prod.mk.inj (Except.ok.inj hstep)
    exact hhere
  split at hstep
  · obtain ⟨rfl, -⟩ := Prod.mk.inj (Except.ok.inj hstep)
    exact h.directory_dropLast hhere
  split at hstep
  · cases hstep
  · obtain ⟨rfl, hget⟩ := Prod.mk.inj (Except.ok.inj hstep)
    exact hget

/-- What a step leads to, if it is no directory, stands or would stand where the step starts. -/
theorem dropLast_of_step {name : String} (hstep : fs.step here name = .ok (location, entry))
    (hentry : entry ≠ some .directory) : location.dropLast = here := by
  unfold step at hstep
  split at hstep
  · exact absurd (Prod.mk.inj (Except.ok.inj hstep)).2.symm hentry
  split at hstep
  · exact absurd (Prod.mk.inj (Except.ok.inj hstep)).2.symm hentry
  split at hstep
  · cases hstep
  · obtain ⟨rfl, -⟩ := Prod.mk.inj (Except.ok.inj hstep)
    exact List.dropLast_concat

theorem directory_dropLast_of_follow (h : fs.IsTree) (hhere : fs.get? here = some .directory)
    (hfollow : fs.follow here route = .ok (location, entry)) (hentry : entry ≠ some .directory) :
    fs.get? location.dropLast = some .directory := by
  fun_induction follow fs here route with
  | case1 => exact absurd (Prod.mk.inj (Except.ok.inj hfollow)).2.symm hentry
  | case2 here last => rw [dropLast_of_step hfollow hentry, hhere]
  | case3 => cases hfollow
  | case4 here name rest _ next hstep ih => exact ih (h.directory_of_step hhere hstep) hfollow
  | case5 => cases hfollow
  | case6 => cases hfollow

/-- A route that leads to no directory leads to a place in one. -/
theorem directory_dropLast_of_locate (h : fs.IsTree)
    (hlocate : fs.locate route = .ok (location, entry)) (hentry : entry ≠ some .directory) :
    fs.get? location.dropLast = some .directory := by
  obtain ⟨here, rest, hhere, hfollow, -⟩ := exists_follow_of_locate hlocate
  refine h.directory_dropLast_of_follow ?_ hfollow hentry
  rcases hhere with rfl | rfl
  · rfl
  · exact h.workingDirectory

/-! ## What keeps a tree -/

theorem put (h : fs.IsTree) (hlocation : fs.get? location ≠ some .directory)
    (hparent : fs.get? location.dropLast = some .directory) (new : Entry) :
    (fs.put location new).IsTree := by
  have hroot : location ≠ [] := by
    rintro rfl
    exact hlocation rfl
  have hkeeps : ∀ {other}, fs.get? other = some .directory →
      (fs.put location new).get? other = some .directory := by
    intro other hother
    have hne : other ≠ location := by
      rintro rfl
      exact hlocation hother
    rw [get?_put_of_ne fs hne, hother]
  refine ⟨fun other name hother => hkeeps ?_, hkeeps h.workingDirectory⟩
  by_cases heq : other ++ [name] = location
  · rw [← heq, List.dropLast_concat] at hparent
    exact hparent
  · rw [get?_put_of_ne fs heq] at hother
    exact h.parent other name hother

theorem makeDirectory (h : fs.IsTree) (hmade : fs.makeDirectory route = .ok fs') : fs'.IsTree := by
  obtain ⟨location, hlocate, rfl⟩ := makeDirectory_eq_ok_iff.1 hmade
  have hnone : fs.get? location = none := (locate_eq_get? hlocate (by simp)).symm
  exact h.put (by simp [hnone]) (h.directory_dropLast_of_locate hlocate (by simp)) _

theorem makeDirectories (h : fs.IsTree) (path : Path) : (fs.makeDirectories path).2.IsTree :=
  makeDirectoriesBackwards_keeps (fun _ _ _ _ htree hmade => htree.makeDirectory hmade) h

theorem writeFile (h : fs.IsTree) {content : ByteArray}
    (hwritten : fs.writeFile route content = .ok fs') : fs'.IsTree := by
  obtain ⟨location, entry, hlocate, hentry, rfl⟩ := writeFile_eq_ok_iff.1 hwritten
  refine h.put ?_ (h.directory_dropLast_of_locate hlocate hentry) _
  rw [← locate_eq_get? hlocate hentry]
  exact hentry

/-- **Delivering a text keeps the tree**, whether it succeeds or not. -/
theorem deliver (h : fs.IsTree) (path : Path) (text : LooseText) : (fs.deliver path text).2.IsTree := by
  have hmade := h.makeDirectories path.parent
  rcases deliver_cases fs path text with ⟨e, made, hdone, heq⟩ | ⟨made, hdone, hend⟩
  · rw [hdone] at hmade
    rw [heq]
    exact hmade
  rw [hdone] at hmade
  rcases hend with ⟨cause, -, heq⟩ | ⟨after, hwritten, heq⟩
  · rw [heq]
    exact hmade
  · rw [heq]
    exact hmade.writeFile hwritten

end IsTree

end ApiScribe.FileSystem

import ApiScribe.Proofs.FileSystem.Downward

set_option autoImplicit false

/-! # Texts delivered to files

To deliver a text the directories that lead to its file are made, and then the file is written. Each
of the two can be refused, and directories that were made before a refusal stay. Still a refusal
costs nothing: every file is as it was, and so is every directory that was there. A success changes
one file. It happens exactly if the path fits, no file is in its way and no directory in its place,
and the text has an encoding (`Path.IsDownward.delivers`).

A text with an unpaired half has none. This is found out when the file is open and empty, so such a
delivery fails and yet takes what the file held. It is the one way to lose a file
(`writesOrKeeps_iff`). After any number of deliveries to any paths, some of which may have failed and
some of which may have made the directories of others, a file holds what the last one that got to
it has left there (`holdsLast_deliverAll`): its text, unless the text had halves. -/

namespace ApiScribe

namespace FileSystem

/-! ## What one delivery does -/

/-- No directory has gone, and each new one leads to the location. -/
structure KeepsDirectories (location : Location) (before after : FileSystem) : Prop where
  kept : ∀ other, before.get? other = some .directory → after.get? other = some .directory
  new : ∀ other, after.get? other = some .directory →
    before.get? other = some .directory ∨ before.get? other = none ∧ IsAncestor other location

/-- Every file is as it was. -/
structure KeepsFiles (location : Location) (before after : FileSystem) : Prop
    extends KeepsDirectories location before after where
  files : ∀ other content,
    after.get? other = some (.file content) ↔ before.get? other = some (.file content)

/-- The file at the location holds the content, with directories all the way to it, and every other
    file is as it was. -/
structure Writes (location : Location) (content : ByteArray) (before after : FileSystem) : Prop
    extends KeepsDirectories location before after where
  written : after.get? location = some (.file content)
  ancestors : ∀ ancestor, IsAncestor ancestor location → after.get? ancestor = some .directory
  files : ∀ other, other ≠ location → ∀ content,
    after.get? other = some (.file content) ↔ before.get? other = some (.file content)

/-- A file can be written at the path: the path fits, no file is in the way, and no directory is in
    the place. -/
structure Admits (fs : FileSystem) (path : Path) : Prop where
  fits : path.Fits
  way : ∀ ancestor, IsAncestor ancestor (fs.target path) → ∀ content,
    fs.get? ancestor ≠ some (.file content)
  place : fs.get? (fs.target path) ≠ some .directory

/-- What delivering a text to a path does. -/
structure Delivers (fs : FileSystem) (path : Path) (text : LooseText) : Prop where
  /-- It succeeds exactly if a file can be written there and the text has no halves. -/
  succeeds_iff : (∃ event after, fs.deliver path text = (.ok event, after)) ↔
    fs.Admits path ∧ text.IsWhole
  /-- A success writes the encoded text, and nothing else. -/
  success : ∀ event after, fs.deliver path text = (.ok event, after) →
    ∃ bytes, Text.encodeUtf8 text = .ok bytes ∧ Writes (fs.target path) bytes fs after ∧
      after.locate path.route = .ok (fs.target path, some (.file bytes))
  /-- A failure on a path is one of the system, and costs no file. -/
  refusal : ∀ e after, fs.deliver path text = (.error (.path e), after) →
    (∃ failure, e.cause = .refused failure) ∧ KeepsFiles (fs.target path) fs after
  /-- It fails for the halves of the text exactly if the file could have been written. -/
  emptied_iff : (∃ fault after, fs.deliver path text = (.error (.encoding fault), after)) ↔
    fs.Admits path ∧ ¬text.IsWhole
  /-- The file is then empty. -/
  emptied : ∀ fault after, fs.deliver path text = (.error (.encoding fault), after) →
    Text.encodeUtf8 text = .error fault ∧ Writes (fs.target path) .empty fs after

/-- Delivering the text writes exactly its file, or the system refuses it and no file changes. -/
def WritesOrKeeps (fs : FileSystem) (path : Path) (text : LooseText) : Prop :=
  (∃ event after bytes, fs.deliver path text = (.ok event, after) ∧
      Text.encodeUtf8 text = .ok bytes ∧ Writes (fs.target path) bytes fs after) ∨
    ∃ e after failure, fs.deliver path text = (.error (.path e), after) ∧
      e.cause = .refused failure ∧ KeepsFiles (fs.target path) fs after

theorem deliver_workingDirectory (fs : FileSystem) (path : Path) (text : LooseText) :
    (fs.deliver path text).2.workingDirectory = fs.workingDirectory := by
  have hmade := (addsDirectories_makeDirectories fs path.parent).workingDirectory
  rcases deliver_cases fs path text with ⟨e, made, hdone, heq⟩ | ⟨made, hdone, hend⟩
  · rw [hdone] at hmade
    rw [heq]
    exact hmade
  rw [hdone] at hmade
  rcases hend with ⟨cause, -, heq⟩ | ⟨after, hwritten, heq⟩
  · rw [heq]
    exact hmade
  · obtain ⟨location, entry, -, -, rfl⟩ := writeFile_eq_ok_iff.1 hwritten
    rw [heq]
    exact hmade

end FileSystem

namespace Path.IsDownward

open FileSystem

variable {fs made after : FileSystem} {path : Path}

/-- Making the directories that lead to a path keeps all files and directories. -/
theorem keepsFiles_of_makeDirectories (h : path.IsDownward) (hfs : fs.IsTree) :
    KeepsFiles (fs.target path) fs (fs.makeDirectories path.parent).2 := by
  have hadds := addsDirectories_makeDirectories fs path.parent
  have hgrown := h.parent.growsTo_makeDirectories hfs
  refine ⟨⟨fun other hother => ?_, fun other hother => ?_⟩, hadds.file_iff⟩
  · rcases hadds.entries other with hsame | ⟨hnone, -⟩
    · rw [hsame, hother]
    · rw [hnone] at hother
      cases hother
  · rcases hadds.entries other with hsame | ⟨hnone, -⟩
    · exact .inl (by rw [← hsame, hother])
    · have hprefix := hgrown.isPrefix other hnone hother
      have hparent : fs.target path.parent <+: fs.target path :=
        (List.prefix_append_right_inj _).2 path.names.dropLast_prefix
      refine .inr ⟨hnone, hprefix.trans hparent, ?_⟩
      -- only the working directory is in the same place as what leads to it, and it is not new
      rintro rfl
      have hlength := hprefix.length_le
      rw [target, target, List.length_append, List.length_append, Path.parent,
        List.length_dropLast] at hlength
      have hempty : path.names = [] := List.eq_nil_of_length_eq_zero (by omega)
      rw [target, hempty, List.append_nil, hfs.workingDirectory] at hnone
      cases hnone

theorem exists_refused_of_writeFile (h : path.IsDownward) {content : ByteArray} {cause : AccessError}
    (hrefused : fs.writeFile path.route content = .error cause) :
    ∃ failure, cause = .refused failure := by
  unfold writeFile at hrefused
  split at hrefused
  · next hlocate =>
    obtain rfl := Except.error.inj hrefused
    exact h.exists_refused_of_locate hlocate
  · exact ⟨_, (Except.error.inj hrefused).symm⟩
  · cases hrefused

/-- A file that is written after the directories is at the target, and nothing else has changed. -/
theorem writes_of_writeFile (h : path.IsDownward) (hfs : fs.IsTree) {content : ByteArray}
    (hmade : fs.makeDirectories path.parent = (.ok (), made))
    (hwritten : made.writeFile path.route content = .ok after) :
    path.Fits ∧ Writes (fs.target path) content fs after := by
  have htree := hfs.makeDirectories path.parent
  have hkeeps := h.keepsFiles_of_makeDirectories hfs
  have htarget := makeDirectories_target fs path.parent path
  rw [hmade] at htree hkeeps htarget
  obtain ⟨location, entry, hlocate, hentry, hafter⟩ := writeFile_eq_ok_iff.1 hwritten
  obtain ⟨hfits, -, rfl, rfl⟩ := (h.locate_eq_ok_iff htree).1 hlocate
  rw [htarget] at hafter hentry
  have hroot : fs.target path ≠ [] := fun hroot => hentry (by rw [hroot]; rfl)
  have hnew : after.get? (fs.target path) = some (.file content) := by
    rw [hafter, get?_put_self made hroot]
  have hold : ∀ other, other ≠ fs.target path → after.get? other = made.get? other := by
    intro other hother
    rw [hafter, get?_put_of_ne made hother]
  refine ⟨hfits, ⟨fun other hother => ?_, fun other hother => ?_⟩, hnew, fun ancestor hancestor => ?_,
    fun other hother old => ?_⟩
  · have hdirectory := hkeeps.kept other hother
    rw [hold other (fun heq => hentry (heq ▸ hdirectory)), hdirectory]
  · have hne : other ≠ fs.target path := by
      rintro rfl
      rw [hnew] at hother
      cases hother
    rw [hold other hne] at hother
    exact hkeeps.new other hother
  · exact (htree.writeFile hwritten).directory_of_isAncestor hancestor (by simp [hnew])
  · rw [hold other hother, hkeeps.files]

/-- Where a file has been written the path admits one. -/
theorem admits_of_writes {content : ByteArray} (hfits : path.Fits)
    (hwrites : Writes (fs.target path) content fs after) : fs.Admits path := by
  refine ⟨hfits, fun ancestor hancestor old hold => ?_, fun hplace => ?_⟩
  · have hfile := (hwrites.files ancestor hancestor.2 old).2 hold
    rw [hwrites.ancestors ancestor hancestor] at hfile
    cases hfile
  · have hdirectory := hwrites.kept _ hplace
    rw [hwrites.written] at hdirectory
    cases hdirectory

/-- Where the path admits a file the delivery gets to it. -/
theorem exists_deliver_eq_endOfWriting (h : path.IsDownward) (hfs : fs.IsTree)
    (hadmits : fs.Admits path) (text : LooseText) :
    ∃ after, fs.deliver path text = (endOfWriting path text, after) := by
  obtain ⟨slashes, names⟩ := path
  obtain rfl : slashes = 0 := h.relative
  cases names using List.reverseRecOn with
  | nil =>
    refine absurd ?_ hadmits.place
    rw [target, List.append_nil, hfs.workingDirectory]
  | append_singleton before last =>
    have hparent : (⟨0, before ++ [last]⟩ : Path).parent = ⟨0, before⟩ := by simp [Path.parent]
    have hclear : fs.IsClear (fs.target ⟨0, before⟩) := by
      intro other hother
      refine hadmits.way other ?_
      rw [target, ← List.append_assoc]
      exact isAncestor_concat_iff.2 hother
    obtain ⟨made, hmade⟩ :=
      h.dropLast.exists_makeDirectories_eq_ok hfs hadmits.fits.dropLast hclear
    have htree := hfs.makeDirectories ⟨0, before⟩
    have hdirectory := h.dropLast.directory_of_makeDirectories hfs hmade
    have hkeeps := h.keepsFiles_of_makeDirectories hfs
    have htarget := makeDirectories_target fs ⟨0, before⟩
    rw [hparent] at hkeeps
    rw [hmade] at htree hkeeps htarget
    rw [← htarget] at hdirectory
    obtain ⟨⟨location, entry⟩, hlocate⟩ :=
      h.exists_locate_of_directory htree hadmits.fits hdirectory
    obtain ⟨-, -, -, hentry⟩ := (h.locate_eq_ok_iff htree).1 hlocate
    have hplace : entry ≠ some .directory := by
      rintro rfl
      rw [htarget] at hentry
      rcases hkeeps.new _ hentry.symm with hold | ⟨-, hself⟩
      · exact hadmits.place hold
      · exact hself.2 rfl
    have hwritten : made.writeFile (⟨0, before ++ [last]⟩ : Path).route (Text.fileContent text) =
        .ok (made.put location (.file (Text.fileContent text))) :=
      writeFile_eq_ok_iff.2 ⟨location, entry, hlocate, hplace, rfl⟩
    rw [deliver, hparent, hmade]
    dsimp only
    rw [hwritten]
    exact ⟨_, rfl⟩

/-- The delivery is refused by the system, or it gets to its file. -/
theorem refused_or_reached (h : path.IsDownward) (hfs : fs.IsTree) (text : LooseText) :
    (∃ e after failure, fs.deliver path text = (.error (.path e), after) ∧
        e.cause = .refused failure ∧ ¬fs.Admits path ∧ KeepsFiles (fs.target path) fs after) ∨
      ∃ after, fs.deliver path text = (endOfWriting path text, after) ∧ fs.Admits path ∧
        Writes (fs.target path) (Text.fileContent text) fs after := by
  have hkeeps := h.keepsFiles_of_makeDirectories hfs
  have hreached : ∀ e after, fs.deliver path text = (.error (.path e), after) →
      ¬fs.Admits path := by
    intro e after hrefused hadmits
    obtain ⟨other, hend⟩ := h.exists_deliver_eq_endOfWriting hfs hadmits text
    have hpath := (Prod.mk.inj (hend.symm.trans hrefused)).1
    rcases endOfWriting_cases path text with ⟨bytes, -, -, hok⟩ | ⟨fault, -, -, hfault⟩
    · cases hok.symm.trans hpath
    · cases hfault.symm.trans hpath
  rcases deliver_cases fs path text with ⟨e, made, hmade, heq⟩ | ⟨made, hmade, hend⟩
  · obtain ⟨failure, hcause⟩ := h.parent.refused_of_makeDirectories hmade
    rw [hmade] at hkeeps
    exact .inl ⟨e, made, failure, heq, hcause, hreached e made heq, hkeeps⟩
  rcases hend with ⟨cause, hrefused, heq⟩ | ⟨after, hwritten, heq⟩
  · obtain ⟨failure, hcause⟩ := h.exists_refused_of_writeFile hrefused
    rw [hmade] at hkeeps
    exact .inl ⟨_, made, failure, heq, hcause, hreached _ made heq, hkeeps⟩
  · obtain ⟨hfits, hwrites⟩ := h.writes_of_writeFile hfs hmade hwritten
    exact .inr ⟨after, heq, admits_of_writes hfits hwrites, hwrites⟩

/-- The path leads to the file that has been written. -/
theorem locate_of_writes (h : path.IsDownward) (hafter : after.IsTree)
    (hworking : after.workingDirectory = fs.workingDirectory) (hfits : path.Fits)
    {content : ByteArray} (hwrites : Writes (fs.target path) content fs after) :
    after.locate path.route = .ok (fs.target path, some (.file content)) := by
  rw [h.locate_eq_ok_iff hafter, target_congr hworking]
  exact ⟨hfits, hwrites.ancestors, rfl, hwrites.written.symm⟩

/-- **One delivery** along a downward path in a tree. -/
theorem delivers (h : path.IsDownward) (hfs : fs.IsTree) (text : LooseText) :
    fs.Delivers path text := by
  have hafter := hfs.deliver path text
  have hworking := deliver_workingDirectory fs path text
  rcases h.refused_or_reached hfs text with
    ⟨e, after, failure, heq, hcause, hadmits, hkeeps⟩ | ⟨after, heq, hadmits, hwrites⟩
  · constructor
    case succeeds_iff => simp [heq, hadmits]
    case success => simp [heq]
    case refusal =>
      intro e' after' hrefused
      obtain ⟨he, rfl⟩ := Prod.mk.inj (heq.symm.trans hrefused)
      cases he
      exact ⟨⟨failure, hcause⟩, hkeeps⟩
    case emptied_iff => simp [heq, hadmits]
    case emptied => simp [heq]
  rw [heq] at hafter hworking
  rcases endOfWriting_cases path text with
    ⟨bytes, hbytes, hcontent, hend⟩ | ⟨fault, hfault, hcontent, hend⟩
  · have hwhole : text.IsWhole := Text.isWhole_iff_exists_encodeUtf8.2 ⟨bytes, hbytes⟩
    rw [hcontent] at hwrites
    rw [hend] at heq
    constructor
    case succeeds_iff => simp [heq, hadmits, hwhole]
    case success =>
      intro event after' hdone
      obtain ⟨-, rfl⟩ := Prod.mk.inj (heq.symm.trans hdone)
      exact ⟨bytes, hbytes, hwrites, h.locate_of_writes hafter hworking hadmits.fits hwrites⟩
    case refusal => simp [heq]
    case emptied_iff => simp [heq, hwhole]
    case emptied => simp [heq]
  · have hhalves : ¬text.IsWhole := by
      intro hwhole
      obtain ⟨bytes, hbytes⟩ := Text.isWhole_iff_exists_encodeUtf8.1 hwhole
      cases hfault.symm.trans hbytes
    rw [hcontent] at hwrites
    rw [hend] at heq
    constructor
    case succeeds_iff => simp [heq, hhalves]
    case success => simp [heq]
    case refusal => simp [heq]
    case emptied_iff => simp [heq, hadmits, hhalves]
    case emptied =>
      intro fault' after' hemptied
      obtain ⟨he, rfl⟩ := Prod.mk.inj (heq.symm.trans hemptied)
      cases he
      exact ⟨hfault, hwrites⟩

/-- **A file is lost** exactly if a text with halves gets to it. -/
theorem writesOrKeeps_iff (h : path.IsDownward) (hfs : fs.IsTree) (text : LooseText) :
    fs.WritesOrKeeps path text ↔ text.IsWhole ∨ ¬fs.Admits path := by
  have hdelivers := h.delivers hfs text
  constructor
  · rintro (⟨event, after, bytes, hdone, -, -⟩ | ⟨e, after, failure, hrefused, -, -⟩)
    · exact .inl (hdelivers.succeeds_iff.1 ⟨event, after, hdone⟩).2
    · refine or_iff_not_imp_left.2 fun hhalves hadmits => ?_
      obtain ⟨fault, other, hemptied⟩ := hdelivers.emptied_iff.2 ⟨hadmits, hhalves⟩
      cases (Prod.mk.inj (hemptied.symm.trans hrefused)).1
  · intro hcause
    rcases h.refused_or_reached hfs text with
      ⟨e, after, failure, heq, hrefused, -, hkeeps⟩ | ⟨after, -, hadmits, -⟩
    · exact .inr ⟨e, after, failure, heq, hrefused, hkeeps⟩
    · have hwhole : text.IsWhole := hcause.resolve_right (not_not_intro hadmits)
      obtain ⟨event, other, hdone⟩ := hdelivers.succeeds_iff.2 ⟨hadmits, hwhole⟩
      obtain ⟨bytes, hbytes, hwrites, -⟩ := hdelivers.success event other hdone
      exact .inl ⟨event, other, bytes, hdone, hbytes, hwrites⟩

end Path.IsDownward

/-! ## Many deliveries -/

/-- A text, and the path of the file that it is for, as it is given. -/
structure Delivery where
  path : String
  text : LooseText
deriving DecidableEq, Repr

namespace FileSystem

variable {fs : FileSystem} {deliveries : List Delivery}

/-- The file system after deliveries, each of which is made whatever has become of those before. -/
def deliverAll (fs : FileSystem) : List Delivery → FileSystem
  | [] => fs
  | delivery :: rest => (fs.deliver (Path.ofText delivery.path) delivery.text).2.deliverAll rest

/-- The deliveries that succeed. -/
def delivered (fs : FileSystem) : List Delivery → List Delivery
  | [] => []
  | delivery :: rest =>
    match fs.deliver (Path.ofText delivery.path) delivery.text with
    | (.ok _, after) => delivery :: after.delivered rest
    | (.error _, after) => after.delivered rest

/-- The deliveries that get to their files: those that succeed, and those that leave a file empty
    because their text has no encoding. -/
def reaching (fs : FileSystem) : List Delivery → List Delivery
  | [] => []
  | delivery :: rest =>
    match fs.deliver (Path.ofText delivery.path) delivery.text with
    | (.error (.path _), after) => after.reaching rest
    | (_, after) => delivery :: after.reaching rest

/-- The last of some deliveries that was for the file at a location. -/
def lastTo (fs : FileSystem) (location : Location) (deliveries : List Delivery) : Option Delivery :=
  (deliveries.filter fun delivery => fs.target (Path.ofText delivery.path) = location).getLast?

/-- Every file holds what the last of the deliveries to it has written, and what it held before if
    there is none. -/
def HoldsLast (before after : FileSystem) (deliveries : List Delivery) : Prop :=
  ∀ location content, after.get? location = some (.file content) ↔
    match before.lastTo location deliveries with
    | some delivery => content = Text.fileContent delivery.text
    | none => before.get? location = some (.file content)

theorem lastTo_congr {after : FileSystem} (h : after.workingDirectory = fs.workingDirectory)
    (location : Location) (deliveries : List Delivery) :
    after.lastTo location deliveries = fs.lastTo location deliveries := by
  rw [lastTo, lastTo, funext (target_congr h)]

theorem lastTo_cons_self {delivery : Delivery} {location : Location}
    (h : fs.target (Path.ofText delivery.path) = location) (rest : List Delivery) :
    fs.lastTo location (delivery :: rest) = some ((fs.lastTo location rest).getD delivery) := by
  rw [lastTo, List.filter_cons_of_pos (by simpa using h), List.getLast?_cons, lastTo]

theorem lastTo_cons_of_ne {delivery : Delivery} {location : Location}
    (h : fs.target (Path.ofText delivery.path) ≠ location) (rest : List Delivery) :
    fs.lastTo location (delivery :: rest) = fs.lastTo location rest := by
  rw [lastTo, List.filter_cons_of_neg (by simpa using h), lastTo]

/-- A delivery that is written before others is the last one where none of them is. -/
theorem HoldsLast.cons {after last : FileSystem} {delivery : Delivery} {rest : List Delivery}
    (hworking : after.workingDirectory = fs.workingDirectory)
    (hwrites : Writes (fs.target (Path.ofText delivery.path)) (Text.fileContent delivery.text) fs after)
    (h : HoldsLast after last rest) : HoldsLast fs last (delivery :: rest) := by
  intro location content
  have hrest := h location content
  rw [lastTo_congr hworking] at hrest
  rw [hrest]
  by_cases hlocation : fs.target (Path.ofText delivery.path) = location
  · rw [lastTo_cons_self hlocation]
    cases fs.lastTo location rest with
    | some later => rfl
    | none => simp [← hlocation, hwrites.written, eq_comm]
  · rw [lastTo_cons_of_ne hlocation]
    cases fs.lastTo location rest with
    | some later => rfl
    | none => exact hwrites.files location (Ne.symm hlocation) content

/-- A delivery that fails leaves the files to those that follow. -/
theorem HoldsLast.of_keepsFiles {after last : FileSystem} {location : Location}
    {rest : List Delivery} (hworking : after.workingDirectory = fs.workingDirectory)
    (hkeeps : KeepsFiles location fs after) (h : HoldsLast after last rest) :
    HoldsLast fs last rest := by
  intro other content
  have hrest := h other content
  rw [lastTo_congr hworking] at hrest
  rw [hrest]
  cases fs.lastTo other rest with
  | some later => rfl
  | none => exact hkeeps.files other content

/-- **Many deliveries** leave in each file what the last one that gets to it writes. -/
theorem holdsLast_deliverAll (hfs : fs.IsTree)
    (hpaths : ∀ delivery ∈ deliveries, IsDownward delivery.path) :
    HoldsLast fs (fs.deliverAll deliveries) (fs.reaching deliveries) := by
  induction deliveries generalizing fs with
  | nil => exact fun location content => Iff.rfl
  | cons delivery rest ih =>
    have hpath := (hpaths delivery (List.mem_cons_self ..)).ofText
    have htree := hfs.deliver (Path.ofText delivery.path) delivery.text
    have hworking := deliver_workingDirectory fs (Path.ofText delivery.path) delivery.text
    have hrest := ih htree fun d hd => hpaths d (List.mem_cons_of_mem _ hd)
    rw [deliverAll]
    rcases hpath.refused_or_reached hfs delivery.text with
      ⟨e, after, failure, heq, -, -, hkeeps⟩ | ⟨after, heq, -, hwrites⟩
    · rw [heq] at hworking hrest ⊢
      have hreaching : fs.reaching (delivery :: rest) = after.reaching rest := by
        rw [reaching, heq]
      rw [hreaching]
      exact hrest.of_keepsFiles hworking hkeeps
    · rw [heq] at hworking hrest ⊢
      have hreaching : fs.reaching (delivery :: rest) = delivery :: after.reaching rest := by
        rw [reaching, heq]
        rcases endOfWriting_cases (Path.ofText delivery.path) delivery.text with
          ⟨bytes, -, -, hend⟩ | ⟨fault, -, -, hend⟩ <;> rw [hend]
      rw [hreaching]
      exact hrest.cons hworking hwrites

/-- Without halves in what gets to the files, the deliveries that get there are those that
    succeed. -/
theorem delivered_eq_reaching (h : ∀ delivery ∈ fs.reaching deliveries, delivery.text.IsWhole) :
    fs.delivered deliveries = fs.reaching deliveries := by
  induction deliveries generalizing fs with
  | nil => rfl
  | cons delivery rest ih =>
    rw [delivered]
    rw [reaching] at h ⊢
    rcases deliver_cases fs (Path.ofText delivery.path) delivery.text with
      ⟨e, made, -, heq⟩ | ⟨made, -, ⟨cause, -, heq⟩ | ⟨after, -, heq⟩⟩
    · rw [heq] at h ⊢
      exact ih h
    · rw [heq] at h ⊢
      exact ih h
    rw [heq] at h ⊢
    rcases endOfWriting_cases (Path.ofText delivery.path) delivery.text with
      ⟨bytes, -, -, hend⟩ | ⟨fault, hfault, -, hend⟩
    · rw [hend] at h ⊢
      dsimp only at h ⊢
      rw [ih fun d hd => h d (List.mem_cons_of_mem _ hd)]
    · rw [hend] at h
      obtain ⟨bytes, hbytes⟩ :=
        Text.isWhole_iff_exists_encodeUtf8.1 (h delivery (List.mem_cons_self ..))
      cases hfault.symm.trans hbytes

/-- **Files hold what was delivered to them last.** In a tree a delivery along a downward path
    writes exactly its file or is refused and changes none, unless a text with halves gets to its
    file, which is then empty. So after any deliveries along such paths every file holds what the
    last one that got to it has written; without halves this is the text of the last one that
    succeeded, and where there is none the file is as it was. -/
theorem files_hold_last_delivered (hfs : fs.IsTree) :
    (∀ given text, IsDownward given → fs.Delivers (Path.ofText given) text ∧
        (fs.WritesOrKeeps (Path.ofText given) text ↔
          text.IsWhole ∨ ¬fs.Admits (Path.ofText given))) ∧
      ∀ deliveries : List Delivery, (∀ delivery ∈ deliveries, IsDownward delivery.path) →
        HoldsLast fs (fs.deliverAll deliveries) (fs.reaching deliveries) ∧
          ((∀ delivery ∈ fs.reaching deliveries, delivery.text.IsWhole) →
            HoldsLast fs (fs.deliverAll deliveries) (fs.delivered deliveries)) := by
  constructor
  · intro given text hgiven
    exact ⟨hgiven.ofText.delivers hfs text, hgiven.ofText.writesOrKeeps_iff hfs text⟩
  · intro deliveries hpaths
    have hlast := holdsLast_deliverAll hfs hpaths
    refine ⟨hlast, fun hwhole => ?_⟩
    rw [delivered_eq_reaching hwhole]
    exact hlast

instance (given : String) : Decidable (IsDownward given) :=
  decidable_of_iff
    (given.toList.head? ≠ some '/' ∧ '\x00' ∉ given.toList ∧ ".." ∉ Route.ofText given)
    ⟨fun ⟨a, b, c⟩ => ⟨a, b, c⟩, fun h => ⟨h.relative, h.noNul, h.noStepBack⟩⟩

/-- A working directory with a file and a directory in it. -/
def workplace : FileSystem :=
  ⟨[(["work"], .directory), (["work", "notes"], .file "old".toUTF8), (["work", "lib"], .directory)],
    ["work"]⟩

/-- Deliveries of which the first and the fourth succeed. The second would need a directory where a
    file stands, the third a file where a directory stands, and the last would need a directory in
    the place of the file that was delivered. -/
def mixedDeliveries : List Delivery :=
  [⟨"out/src/a.ts", "one"⟩, ⟨"notes/a.ts", "two"⟩, ⟨"lib", "three"⟩, ⟨"out//src/./a.ts", "four"⟩,
    ⟨"out/src/a.ts/b.ts", "five"⟩]

theorem isTree_workplace : workplace.IsTree := by
  refine isTree_of_entries ?_ rfl
  simp only [workplace, List.forall_mem_cons, List.not_mem_nil]
  exact ⟨fun _ => rfl, fun _ => rfl, fun _ => rfl, nofun⟩

theorem files_hold_last_delivered_workplace :
    workplace.IsTree ∧ (∀ delivery ∈ mixedDeliveries, IsDownward delivery.path) ∧
      (∀ delivery ∈ workplace.reaching mixedDeliveries, delivery.text.IsWhole) ∧
      workplace.Delivers (Path.ofText "notes/a.ts") "two" ∧
      (workplace.deliverAll mixedDeliveries).get? ["work", "out", "src", "a.ts"] =
        some (.file "four".toUTF8) ∧
      (workplace.deliverAll mixedDeliveries).get? ["work", "notes"] =
        some (.file "old".toUTF8) := by
  have hpaths : ∀ delivery ∈ mixedDeliveries, IsDownward delivery.path := by decide
  have hreaching : workplace.reaching mixedDeliveries =
      [⟨"out/src/a.ts", "one"⟩, ⟨"out//src/./a.ts", "four"⟩] := by decide +kernel
  have hdelivered : workplace.delivered mixedDeliveries =
      [⟨"out/src/a.ts", "one"⟩, ⟨"out//src/./a.ts", "four"⟩] := by decide +kernel
  have hwhole : ∀ delivery ∈ workplace.reaching mixedDeliveries, delivery.text.IsWhole := by
    rw [hreaching]
    decide
  obtain ⟨hone, hall⟩ := files_hold_last_delivered isTree_workplace
  have hlast := (hall mixedDeliveries hpaths).2 hwhole
  rw [hdelivered] at hlast
  refine ⟨isTree_workplace, hpaths, hwhole, (hone _ _ (by decide)).1, (hlast _ _).2 ?_,
    (hlast _ _).2 ?_⟩
  · rfl
  · rfl

/-- A first half of a pair. -/
def loneHalf : Half := ⟨0xD800, by decide⟩

/-- A text that ends in the first half of a pair. -/
def brokenText : LooseText := ⟨[.char 'a', .half loneHalf]⟩

/-- A text with a half takes what the file held. -/
theorem not_writesOrKeeps_brokenText :
    workplace.IsTree ∧ IsDownward "notes" ∧
      workplace.get? ["work", "notes"] = some (.file "old".toUTF8) ∧
      (workplace.deliver (Path.ofText "notes") brokenText).1 =
        .error (.encoding ⟨1, [loneHalf]⟩) ∧
      (workplace.deliver (Path.ofText "notes") brokenText).2.get? ["work", "notes"] =
        some (.file .empty) ∧
      ¬workplace.WritesOrKeeps (Path.ofText "notes") brokenText := by
  have hend : (workplace.deliver (Path.ofText "notes") brokenText).1 =
      .error (.encoding ⟨1, [loneHalf]⟩) := by decide +kernel
  refine ⟨isTree_workplace, by decide, rfl, hend, rfl, ?_⟩
  rintro (⟨event, after, bytes, heq, -⟩ | ⟨e, after, failure, heq, -⟩)
  · rw [heq] at hend
    cases hend
  · rw [heq] at hend
    cases hend

end FileSystem

end ApiScribe

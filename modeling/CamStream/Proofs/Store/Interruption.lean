import CamStream.Proofs.Files.Incidents
import CamStream.Proofs.Store.Devices

/-!
# Writes that are cut short

A write makes sure of the directory, fills the staging file and puts it in the place of the old file. Each
of its requests may fail, its bytes may go out in pieces, and the process may stop at any time. Until the
staging file is moved, only that file and new directories have been touched, so the blob that was kept
is kept; and once it is moved the write has succeeded.

A reader can tell a new directory from a missing one in two ways: by a path with `..` behind it, which led
nowhere before, and by a name too long for a file, which is only then found to be too long. A `..` in front
of all that was missing does no harm.

* `DirectoryStore.asks_ensure`: making sure of the directory asks for nothing but directories.
* `DirectoryStore.Unfinished`: what a write has done before the staging file is moved.
* `DirectoryStore.throughout_write`, `DirectoryStore.course_write`: so it is whatever the write meets with.
* `DirectoryStore.Prepared.read_of_found`, `DirectoryStore.Prepared.read_of_missing`: what is read when
  directories were made.
* `DirectoryStore.StillOld`, `DirectoryStore.NowNew`: what there is before the staging file is moved, and
  after.
-/

namespace CamStream

open FileSystem

namespace DirectoryStore

variable {directory : Path} {device : String} {blob contents : Bytes} {parent : Location}
  {files made after last : FileSystem}

/-! ## Making sure of the directory -/

/-- Making sure of a directory looks for directories, and makes the directory and its ancestors. -/
def EnsureRequest (paths : List Path) : Request → Prop
  | .isDirectory _ => True
  | .makeDirectory path => path ∈ paths
  | _ => False

theorem asks_unlessDirectory (paths : List Path) (path : Path) (error : FileError) :
    (unlessDirectory path error).run.Asks (EnsureRequest paths) := by
  refine ⟨trivial, fun there => ?_⟩
  cases there <;> exact trivial

theorem asks_makeDirectories {paths more : List Path} (h : more ⊆ paths) :
    (makeDirectories more).run.Asks (EnsureRequest paths) := by
  induction more with
  | nil => exact trivial
  | cons path ancestors ih =>
    have hpath : (Script.makeDirectory path).run.Asks (EnsureRequest paths) :=
      ⟨h List.mem_cons_self, fun _ => trivial⟩
    apply hpath.tryCatch
    intro error
    split
    · apply (ih fun other hother => h (List.mem_cons_of_mem _ hother)).fallible_bind
      exact fun _ => hpath.tryCatch (asks_unlessDirectory paths path)
    · exact asks_unlessDirectory paths path error

theorem asks_ensure (directory : Path) :
    (ensure directory).run.Asks (EnsureRequest (directory :: directory.ancestors)) := by
  refine ⟨trivial, fun there => ?_⟩
  cases there with
  | true => exact trivial
  | false =>
    show (if directory.text = "" then (return ()) else
      makeDirectories (directory :: directory.ancestors)).run.Asks _
    split
    · exact trivial
    · exact asks_makeDirectories (List.Subset.refl _)

theorem prepared_answer {request : Request} {seen : FileSystem}
    (hrequest : EnsureRequest (directory :: directory.ancestors) request)
    (h : Prepared directory files seen) :
    Prepared directory files (Script.answer seen request).2 := by
  cases request with
  | isDirectory path => exact h
  | makeDirectory path =>
    have hway := Path.onTheWay_of_mem hrequest
    simp only [Script.answer]
    cases hmake : seen.makeDirectory path privateMode with
    | error error => exact h
    | ok made => exact h.trans (grown_of_makeDirectory hrequest hway.isAbsolute hmake)
  | _ => exact absurd hrequest id

/-- Whatever is met with, no more is done than to add directories. -/
theorem throughout_ensure (directory : Path) (files : FileSystem) (moves : List (Path × Path)) :
    (ensure directory).run.Throughout (fun made seen => made = moves ∧ Prepared directory files seen)
      (fun _ made last => made = moves ∧ Prepared directory files last) moves files := by
  apply (asks_ensure directory).throughout
  · intro request hrequest given
    cases request with
    | isDirectory | makeDirectory => rfl
    | _ => exact absurd hrequest id
  · intro request hrequest before seen hbefore hseen
    cases request with
    | isDirectory | makeDirectory =>
      obtain rfl := hseen
      exact hbefore
    | _ => exact absurd hrequest id
  · intro request hrequest seen hseen
    exact prepared_answer hrequest hseen
  · exact .refl files

/-! ## Before the staging file is moved -/

/-- The staging file of a device is there and holds something, and all else is as it was. -/
structure Staged (directory : Path) (device : String) (parent : Location) (made after : FileSystem) :
    Prop where
  staging : made.Place directory (stagingName device) parent
  workingDirectory : after.workingDirectory = made.workingDirectory
  sound : after.Sound
  node? : ∃ number contents, ∀ location, after.node? location =
    if location = parent ++ [stagingName device] then some (.file number contents)
    else made.node? location

/-- What a write has done at most before the staging file is moved: directories were added, and there is
a staging file. -/
def Unfinished (directory : Path) (device : String) (files after : FileSystem) : Prop :=
  ∃ made, Prepared directory files made ∧
    (after = made ∨ ∃ parent, Staged directory device parent made after)

theorem Prepared.unfinished (h : Prepared directory files made) :
    Unfinished directory device files made := ⟨made, h, Or.inl rfl⟩

/-- However much of the bytes is written, they go to the staging file. -/
theorem staged_of_create {handle : Handle} {created : FileSystem} (hsound : made.Sound)
    (hcreate : made.create (stagingPath directory device) = .ok (handle, created)) :
    ∃ parent, Staged directory device parent made created ∧
      ∀ bytes, Staged directory device parent made (created.write handle bytes).2 := by
  obtain ⟨parent, hstaging⟩ := place_of_create (plain_stagingName device) hcreate
  have hcreated := created_of_create hcreate
  have hspares := hcreated.spares hsound
  rw [stagingPath, hstaging.target_eq] at hcreated hspares
  refine ⟨parent, ⟨hstaging, hcreated.workingDirectory, hspares.sound, handle.number, [],
    hcreated.node?⟩, fun bytes => ?_⟩
  have hwritten := FileSystem.spares_write hspares.sound hcreated.node?_self bytes
  refine ⟨hstaging, hwritten.workingDirectory.trans hcreated.workingDirectory, hwritten.sound,
    handle.number, bytes, fun location => ?_⟩
  split
  · rename_i hlocation
    rw [hlocation]
    exact node?_write_created hcreated.position hcreated.node?_self bytes
  · rename_i hother
    rw [node?_write_of_ne hspares.sound hcreated.node?_self bytes hother, hcreated.node?,
      if_neg hother]

/-! ## All that a write may meet with -/

/-- How a write ends: with an error before the staging file is moved, or without one when it has been. -/
inductive Ended (directory : Path) (device : String) (blob : Bytes) (files : FileSystem) :
    Except FileError Unit → List (Path × Path) → FileSystem → Prop where
  | failed {error : FileError} {after : FileSystem} (h : Unfinished directory device files after) :
    Ended directory device blob files (.error error) [] after
  | replaced {made last : FileSystem} {parent : Location} (hmade : Prepared directory files made)
    (h : Written directory device blob parent made last) :
    Ended directory device blob files (.ok ()) [(stagingPath directory device, blobPath directory device)]
      last

/-- **Whatever a write meets with**, until it has moved the staging file nothing else is touched. -/
theorem throughout_write (hsound : files.Sound) (directory : Path) (device : String) (blob : Bytes) :
    (write directory device blob).run.Throughout
      (fun moves seen => moves = [] ∧ Unfinished directory device files seen)
      (Ended directory device blob files) [] files := by
  apply Script.throughout_fallible_bind
  refine (throughout_ensure directory files []).mono (fun _ _ h => ⟨h.1, h.2.unfinished⟩) ?_
  rintro (error | ⟨⟩) moves made ⟨rfl, hmade⟩
  · exact .failed hmade.unfinished
  have hfailed : ∀ {seen}, Unfinished directory device files seen → ∀ error,
      Ended directory device blob files (.error error) [] seen := fun h _ => .failed h
  -- From here on there is a staging file, and what it holds does not matter until it is moved.
  apply Script.throughout_fallible_bind
  apply Script.throughout_create ⟨rfl, hmade.unfinished⟩ (hfailed hmade.unfinished)
  intro handle created hcreate
  obtain ⟨parent, hcreated, hpieces⟩ := staged_of_create (hmade.sound hsound) hcreate
  have hpiece : ∀ bytes, Unfinished directory device files (created.write handle bytes).2 :=
    fun bytes => ⟨made, hmade, Or.inr ⟨parent, hpieces bytes⟩⟩
  have hempty : Unfinished directory device files created := ⟨made, hmade, Or.inr ⟨parent, hcreated⟩⟩
  apply Script.throughout_fallible_bind
  apply Script.throughout_write ⟨⟨rfl, hempty⟩, hfailed hempty⟩
  · exact fun count => ⟨⟨rfl, hpiece _⟩, hfailed (hpiece _)⟩
  apply Script.throughout_fallible_bind
  refine Script.throughout_sync ⟨rfl, hpiece blob⟩ (hfailed (hpiece blob)) ?_
  apply Script.throughout_rename ⟨rfl, hpiece blob⟩ (hfailed (hpiece blob))
  intro last hrename
  obtain ⟨_, hwritten⟩ := written_of_steps (hmade.sound hsound) hcreate hrename
  exact .replaced hmade hwritten

/-! ## What is read before the staging file is moved -/

theorem Staged.sameDirectories (h : Staged directory device parent made after) :
    made.SameDirectories after := by
  obtain ⟨number, contents, hnodes⟩ := h.node?
  exact sameDirectories_of_node? h.staging.free rfl h.workingDirectory hnodes

/-- The staging file is not the one that is read. -/
theorem Staged.read (h : Staged directory device parent made after) :
    after.read (blobPath directory device) = made.read (blobPath directory device) := by
  obtain ⟨number, contents, hnodes⟩ := h.node?
  have hleads := h.staging.leadsTo
  have hother : parent ++ [fileName device] ≠ parent ++ [stagingName device] := by
    intro heq
    exact fileName_ne_stagingName device (List.singleton_inj.mp (List.append_cancel_left heq))
  rw [blobPath, read_join (plain_fileName device) (hleads.same h.sameDirectories),
    read_join (plain_fileName device) hleads, hnodes, if_neg hother]

theorem Unfinished.exists_read (h : Unfinished directory device files after) :
    ∃ made, Prepared directory files made ∧
      after.read (blobPath directory device) = made.read (blobPath directory device) := by
  obtain ⟨made, hmade, rfl | ⟨parent, hstaged⟩⟩ := h
  · exact ⟨after, hmade, rfl⟩
  · exact ⟨made, hmade, hstaged.read⟩

/-- Where the directory is there, nothing is made in it. -/
theorem Prepared.node?_entry (h : Prepared directory files made) (hleads : files.LeadsTo directory parent)
    (name : String) : made.node? (parent ++ [name]) = files.node? (parent ++ [name]) := by
  rcases h.node? (parent ++ [name]) with hsame | ⟨hnone, -, path, hpath, hlocation⟩
  · exact hsame
  · have hthere := hleads.onTheWay (Path.onTheWay_of_mem hpath)
    rw [hlocation] at hnone
    have hsome := isSome_node?_of_isDirectoryAt hthere.isDirectory
    rw [hnone] at hsome
    cases hsome

/-- A read that did not fail for want of the directory is the same as before. -/
theorem Prepared.read_of_found (h : Prepared directory files made) (hrooted : files.Rooted)
    (hwalk : files.walk (files.origin directory) directory.steps ≠ .error .notFound) (device : String) :
    made.read (blobPath directory device) = files.read (blobPath directory device) := by
  have hplain := plain_fileName device
  have hmade := walk_kept (fun _ => h.kept) hrooted h.origin_kept hwalk
  by_cases hthere : ∃ parent, files.LeadsTo directory parent
  · obtain ⟨parent, hleads⟩ := hthere
    have hleads' : made.LeadsTo directory parent := by
      refine ⟨?_, h.isDirectoryAt hleads.isDirectory⟩
      rw [h.origin_eq, hmade, hleads.walk]
    rw [blobPath, read_join hplain hleads, read_join hplain hleads', h.node?_entry hleads]
  · obtain ⟨error, hother, hfails⟩ := walk_into_of_not_leadsTo hthere hwalk (fileName device)
    have hsame := walk_kept (fun _ => h.kept) hrooted h.origin_kept
      (by rw [hfails]; simpa using hother)
    rw [← Path.steps_join hplain, ← origin_join files directory hplain] at hfails hsame
    rw [hfails] at hsame
    rw [blobPath, read_of_walk_error hfails, read_of_walk_error]
    rw [h.origin_eq, hsame]

section Missing

variable (h : Prepared directory files made) (hrooted : files.Rooted)
  (hup : files.NoUpBehind (files.origin directory) directory.steps)
  (hwalk : files.walk (files.origin directory) directory.steps = .error .notFound)

include h hrooted hup hwalk

theorem Prepared.read_ne_ok (device : String) (bytes : Bytes) :
    made.read (blobPath directory device) ≠ .ok bytes := by
  intro hread
  obtain ⟨location, hlocate, hfile⟩ := bind_eq_ok_iff.mp hread
  have hlocation := target_of_locate hlocate
  rw [h.workingDirectory, blobPath, target_join _ _ (plain_fileName device)] at hlocation
  rw [hlocation, h.node?_missing hrooted hup hwalk] at hfile
  cases hfile

/-- With names that a file can have, a directory that was missing is not told from one that was made. -/
theorem Prepared.read_of_missing (device : String)
    (hfits : ∀ name, .into name ∈ (blobPath directory device).steps → name.utf8ByteSize ≤ maxNameSize) :
    made.read (blobPath directory device) = files.read (blobPath directory device) := by
  have hplain := plain_fileName device
  have hsteps : (directory.join (fileName device)).steps =
      directory.steps ++ [.into (fileName device)] := Path.steps_join hplain
  have hstart := h.isDirectoryAt (isDirectoryAt_of_walk_notFound hwalk)
  have hempty : made.node? (follow (files.origin directory) (directory.join (fileName device)).steps) =
      none := by
    rw [hsteps, follow_append]
    exact h.node?_missing hrooted hup hwalk (fileName device)
  have hclear : ∀ front, front <+: (directory.join (fileName device)).steps →
      made.node? (follow (files.origin directory) front) = none ∨
        made.isDirectoryAt (follow (files.origin directory) front) = true := by
    -- At the end of the way nothing is. Before that is what was on the walk that missed something, or a
    -- directory that is new.
    intro front hfront
    rw [hsteps, List.prefix_concat_iff] at hfront
    rcases hfront with rfl | hfront
    · left
      rwa [hsteps] at hempty
    · rcases h.node? (follow (files.origin directory) front) with hsame | ⟨-, hnew, -⟩
      · rw [hsame, isDirectoryAt_eq hsame]
        exact hrooted.clear_of_notFound hup hwalk hfront
      · right
        rw [isDirectoryAt, hnew]
        rfl
  have hmissing : made.walk (made.origin (directory.join (fileName device)))
      (directory.join (fileName device)).steps = .error .notFound := by
    rw [origin_join made directory hplain, h.origin_eq]
    rcases walk_of_clear (h.rooted hrooted) hstart hclear hfits with ⟨-, hdirectory⟩ | hmissing
    · rw [isDirectoryAt, hempty] at hdirectory
      cases hdirectory
    · exact hmissing
  rw [blobPath, read_of_walk_error hmissing, read_join_of_notFound hplain hwalk]

end Missing

/-! ## What is left of the files -/

/-- All is as it was, except at some places and for directories that are new. -/
def SameBut (places : List Location) (files after : FileSystem) : Prop :=
  ∀ location, location ∉ places → after.node? location = files.node? location ∨
    files.node? location = none ∧ after.node? location = some (.directory privateMode)

namespace SameBut

variable {places more : List Location}

theorem of_prepared (h : Prepared directory files made) : SameBut places files made :=
  fun location _ => (h.node? location).imp_right fun hnew => ⟨hnew.1, hnew.2.1⟩

theorem trans (h : SameBut places files after)
    (hlast : SameBut places after last) : SameBut places files last := by
  intro location hplace
  rcases hlast location hplace with hsame | ⟨hnone, hnew⟩
  · rw [hsame]
    exact h location hplace
  · rcases h location hplace with hsame | ⟨hbefore, -⟩
    · exact Or.inr ⟨hsame ▸ hnone, hnew⟩
    · exact Or.inr ⟨hbefore, hnew⟩

theorem mono (h : SameBut places files after) (hsub : places ⊆ more) : SameBut more files after :=
  fun location hplace => h location fun hmem => hplace (hsub hmem)

end SameBut

theorem Unfinished.sameBut (h : Unfinished directory device files after) :
    SameBut [target files.workingDirectory (stagingPath directory device)] files after := by
  obtain ⟨made, hmade, rfl | ⟨parent, hstaged⟩⟩ := h
  · exact .of_prepared hmade
  · apply SameBut.trans (.of_prepared hmade)
    intro location hplace
    obtain ⟨number, contents, hnodes⟩ := hstaged.node?
    rw [← hmade.workingDirectory, stagingPath, hstaged.staging.target_eq, List.mem_singleton] at hplace
    exact Or.inl ((hnodes location).trans (if_neg hplace))

theorem Written.sameBut (h : Written directory device blob parent made last)
    (hmade : Prepared directory files made) :
    SameBut (placesOf files.workingDirectory directory device) files last := by
  apply SameBut.trans (.of_prepared hmade)
  intro location hplace
  obtain ⟨number, hnodes⟩ := h.node?
  rw [placesOf, ← hmade.workingDirectory, stagingPath, blobPath, h.staging.target_eq, h.place.target_eq,
    List.mem_cons, List.mem_singleton, not_or] at hplace
  left
  rw [hnodes, if_neg hplace.2, if_neg hplace.1]

/-! ## Before and after the staging file is moved -/

/-- What was kept for a device is still kept: only its staging file and directories that are new have
been touched. What is given back is the same where the directory of the store was not missing. It is the
same where it was, if no `..` stands behind the part of the path that was there and no name is too long;
with such a name the pair that is loaded is the same, which is none. -/
structure StillOld (directory : Path) (device : String) (files after : FileSystem) : Prop where
  sameBut : SameBut [target files.workingDirectory (stagingPath directory device)] files after
  found (hwalk : files.walk (files.origin directory) directory.steps ≠ .error .notFound) :
    (BlobStore.onFiles directory).given device after = (BlobStore.onFiles directory).given device files
  missing (hup : files.NoUpBehind (files.origin directory) directory.steps)
    (hfits : ∀ name, .into name ∈ (blobPath directory device).steps → name.utf8ByteSize ≤ 255) :
    (BlobStore.onFiles directory).given device after = (BlobStore.onFiles directory).given device files
  load (hup : files.NoUpBehind (files.origin directory) directory.steps) :
    ((BlobStore.onFiles directory).given device after).2 =
      ((BlobStore.onFiles directory).given device files).2

/-- A blob is kept for a device, and nothing else has changed but that directories may be new. The blob is
read up to the limit. -/
structure NowNew (directory : Path) (device : String) (blob : Bytes) (files last : FileSystem) :
    Prop where
  given : (BlobStore.onFiles directory).given device last =
    (.ok (some (blob.take 2048)), ParameterSets.ofBlob? (blob.take 2048))
  file : ∃ number,
    last.node? (target files.workingDirectory (blobPath directory device)) = some (.file number blob)
  staging : last.node? (target files.workingDirectory (stagingPath directory device)) = none
  sameBut : SameBut (placesOf files.workingDirectory directory device) files last

/-- Nothing is loaded from what cannot be read. -/
theorem load_eq_none (h : ∀ bytes, files.read (blobPath directory device) ≠ .ok bytes) :
    ((BlobStore.onFiles directory).given device files).2 = none := by
  rw [BlobStore.given_onFiles, run_read]
  cases hanswer : files.read (blobPath directory device) with
  | ok bytes => exact absurd hanswer (h bytes)
  | error error =>
    unfold answerOf
    dsimp only
    split <;> rfl

theorem Unfinished.stillOld (h : Unfinished directory device files after) (hrooted : files.Rooted) :
    StillOld directory device files after := by
  obtain ⟨made, hmade, hread⟩ := h.exists_read
  have hgiven : made.read (blobPath directory device) = files.read (blobPath directory device) →
      (BlobStore.onFiles directory).given device after =
        (BlobStore.onFiles directory).given device files := by
    intro hsame
    rw [BlobStore.given_onFiles, BlobStore.given_onFiles, run_read, run_read, hread, hsame]
  have hfound := fun hwalk => hgiven (hmade.read_of_found hrooted hwalk device)
  refine ⟨h.sameBut, hfound, fun hup hfits => ?_, fun hup => ?_⟩
  · by_cases hwalk : files.walk (files.origin directory) directory.steps = .error .notFound
    · exact hgiven (hmade.read_of_missing hrooted hup hwalk device hfits)
    · exact hfound hwalk
  · by_cases hwalk : files.walk (files.origin directory) directory.steps = .error .notFound
    · rw [load_eq_none, load_eq_none]
      · exact Prepared.read_ne_ok (.refl files) hrooted hup hwalk device
      · rw [hread]
        exact hmade.read_ne_ok hrooted hup hwalk device
    · rw [hfound hwalk]

theorem Written.nowNew (h : Written directory device blob parent made last)
    (hmade : Prepared directory files made) : NowNew directory device blob files last where
  given := by
    rw [BlobStore.given_onFiles, h.run_read_same rfl]
    rfl
  file := by
    rw [← hmade.workingDirectory, blobPath, h.place.target_eq]
    exact h.node?_file
  staging := by
    rw [← hmade.workingDirectory, stagingPath, h.staging.target_eq]
    exact h.node?_staging
  sameBut := h.sameBut hmade

/-- What a write may leave in any case. -/
structure Left (directory : Path) (device : String) (files after : FileSystem) : Prop where
  workingDirectory : after.workingDirectory = files.workingDirectory
  sound : after.Sound
  sameBut : SameBut (placesOf files.workingDirectory directory device) files after

theorem Unfinished.left (h : Unfinished directory device files after) (hsound : files.Sound) :
    Left directory device files after where
  workingDirectory := by
    obtain ⟨made, hmade, rfl | ⟨parent, hstaged⟩⟩ := h
    · exact hmade.workingDirectory
    · exact hstaged.workingDirectory.trans hmade.workingDirectory
  sound := by
    obtain ⟨made, hmade, rfl | ⟨parent, hstaged⟩⟩ := h
    · exact hmade.sound hsound
    · exact hstaged.sound
  sameBut := h.sameBut.mono (List.cons_subset_cons _ (List.nil_subset _))

theorem Written.left (h : Written directory device blob parent made last)
    (hmade : Prepared directory files made) : Left directory device files last where
  workingDirectory := h.workingDirectory.trans hmade.workingDirectory
  sound := h.sound
  sameBut := h.sameBut hmade

/-- The next write has the last word. -/
theorem Left.nowNew (h : Left directory device files after)
    (hlast : NowNew directory device blob after last) : NowNew directory device blob files last where
  given := hlast.given
  file := h.workingDirectory ▸ hlast.file
  staging := h.workingDirectory ▸ hlast.staging
  sameBut := h.sameBut.trans (h.workingDirectory ▸ hlast.sameBut)

/-- After any incidents a write is unfinished, or it has succeeded. -/
theorem course_write (hsound : files.Sound) (directory : Path) (device : String) (blob : Bytes)
    (incidents : List Incident) :
    let course := (write directory device blob).run.course files incidents
    (course.moves = [] ∧ course.value? ≠ some (.ok ()) ∧
      Unfinished directory device files course.files) ∨
    (course.moves = [(stagingPath directory device, blobPath directory device)] ∧
      course.value? = some (.ok ()) ∧ ∃ made parent, Prepared directory files made ∧
        Written directory device blob parent made course.files) := by
  intro course
  rcases (throughout_write hsound directory device blob).course incidents with
    ⟨hvalue, hmoves, hafter⟩ | ⟨value, hvalue, hended⟩
  · left
    refine ⟨hmoves, ?_, hafter⟩
    rw [hvalue]
    simp
  · change Ended directory device blob files value course.moves course.files at hended
    change course.value? = some value at hvalue
    generalize course.moves = moves, course.files = last at hended ⊢
    cases hended with
    | failed hafter =>
      left
      refine ⟨rfl, ?_, hafter⟩
      rw [hvalue]
      simp
    | replaced hmade hwritten => exact Or.inr ⟨rfl, hvalue, _, _, hmade, hwritten⟩

end DirectoryStore

end CamStream

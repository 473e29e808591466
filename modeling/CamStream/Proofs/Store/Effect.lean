import CamStream.Proofs.Files.Entries
import CamStream.Proofs.Store.Apart
import CamStream.Proofs.Store.Directory

/-!
# What a write does to the directory

A write that goes well has made sure of the directory, and has changed two of its entries: the file of
the device holds the blob, and nothing has the name of the staging file. All else is as it was when the
directory had been made sure of.

* `DirectoryStore.walk_of_run_ensure`: the directory is made only where its path leads nowhere.
* `DirectoryStore.written_of_run_write`: so it is, whatever the file system was.
* `DirectoryStore.run_read_of_entry`: a read is decided by the entry with the name of the file.
-/

namespace CamStream

open FileSystem

namespace FileSystem.Place

variable {files : FileSystem} {directory : Path} {name : String} {parent : Location}

theorem target_eq (h : Place files directory name parent) :
    target files.workingDirectory (directory.join name) = parent ++ [name] :=
  (target_of_locateEntry h.locateEntry).symm

end FileSystem.Place

namespace DirectoryStore

variable {directory : Path} {device : String} {blob : Bytes} {parent : Location}
  {files made last : FileSystem}

/-! ## Making sure of the directory -/

theorem run_unlessDirectory (path : Path) (error : FileError) (files : FileSystem) :
    (unlessDirectory path error).run.run files =
      (if files.isDirectory path then .ok () else .error error, files) := by
  rw [unlessDirectory, Script.run_fallible_bind, Script.run_fallible_request]
  cases hthere : files.isDirectory path <;> simp only [Script.answer, hthere] <;> rfl

/-- If the directory is not there, it is tried to be made before those above it. -/
theorem run_ensure_of_not_there (htext : directory.text ≠ "")
    (hthere : files.isDirectory directory = false) :
    (ensure directory).run.run files =
      match files.makeDirectory directory privateMode with
      | .ok made => (.ok (), made)
      | .error error =>
        if error = .notFound then
          (do
            makeDirectories directory.ancestors
            tryCatch (Script.makeDirectory directory) (unlessDirectory directory)).run.run files
        else (.error error, files) := by
  rw [ensure, Script.run_fallible_bind, Script.run_fallible_request]
  simp only [Script.answer, hthere, Bool.false_eq_true, if_false]
  rw [if_neg htext, makeDirectories, Script.run_tryCatch, Script.run_makeDirectory]
  cases files.makeDirectory directory privateMode with
  | ok made => rfl
  | error error =>
    by_cases hmissing : error = .notFound
    · simp only [hmissing, if_true]
    · simp [hmissing, run_unlessDirectory, hthere]

/-- The directory is there, or there is nothing where its path leads and it is made. -/
theorem walk_of_run_ensure (h : (ensure directory).run.run files = (.ok (), made)) :
    made = files ∨ files.walk (files.origin directory) directory.steps = .error .notFound := by
  by_cases hthere : directory.text = "" ∨ files.isDirectory directory = true
  · rw [run_ensure_of_there hthere] at h
    cases h
    exact Or.inl rfl
  · rw [not_or, Bool.not_eq_true] at hthere
    obtain ⟨htext, hthere⟩ := hthere
    rw [run_ensure_of_not_there htext hthere] at h
    right
    cases hmake : files.makeDirectory directory privateMode with
    | ok after => exact walk_of_makeDirectory hmake
    | error error =>
      by_cases hmissing : error = .notFound
      · rw [hmissing] at hmake
        exact walk_of_makeDirectory_notFound htext hmake
      · rw [hmake] at h
        simp [hmissing] at h

/-- A path that names nothing cannot be made sure of. -/
theorem checkPath_of_run_ensure (h : (ensure directory).run.run files = (.ok (), made)) :
    directory.text = "" ∨ checkPath directory = .ok () := by
  by_cases htext : directory.text = ""
  · exact Or.inl htext
  · cases hpath : checkPath directory with
    | ok _ => exact Or.inr rfl
    | error error =>
      exfalso
      have hother : error ≠ .notFound := by
        rintro rfl
        unfold checkPath pathFault? at hpath
        grind
      have hthere : files.isDirectory directory = false := by
        rw [isDirectory, locate, hpath]
        rfl
      have hmake : files.makeDirectory directory privateMode = .error error := by
        rw [makeDirectory, locateEntry, hpath]
        rfl
      rw [run_ensure_of_not_there htext hthere, hmake] at h
      simp [hother] at h

/-- Of a directory whose path is accepted, the path of a staging file is refused only for its length. -/
theorem checkPath_stagingPath (h : directory.text = "" ∨ checkPath directory = .ok ())
    (device : String) :
    checkPath (stagingPath directory device) =
      if maxPathSize < (stagingPath directory device).text.utf8ByteSize then .error .nameTooLong
      else .ok () := by
  have hdirectory : '\x00' ∉ directory.text.toList := by
    rcases h with hempty | hpath
    · simp [hempty]
    · exact (checkPath_eq_ok_iff.mp hpath).1
  have hnul : '\x00' ∉ (stagingPath directory device).text.toList := by
    intro hmem
    rcases Path.mem_join hmem with hmem | hslash | hmem
    · exact hdirectory hmem
    · exact absurd hslash (by decide)
    · exact absurd (isNameChar_of_mem_stagingName hmem) (by decide)
  have hne : (stagingPath directory device).text ≠ "" := by
    intro hempty
    have hsize := (Path.size_join directory (stagingName device)).1
    rw [← stagingPath, hempty, size_stagingName] at hsize
    exact absurd hsize (by simp)
  unfold checkPath pathFault?
  grind

/-- A staging file that cannot be named cannot be written. -/
theorem run_write_of_refused {error : FileError}
    (hensure : (ensure directory).run.run files = (.ok (), made))
    (hpath : checkPath (stagingPath directory device) = .error error) :
    (write directory device blob).run.run files = (.error error, made) := by
  have hcreate : made.create (stagingPath directory device) = .error error := by
    rw [create, locateEntry, hpath]
    rfl
  rw [write, Script.run_fallible_bind, hensure]
  simp only [Script.run_fallible_bind, Script.run_create, hcreate]

/-! ## The two files of a device -/

theorem fileName_ne_stagingName (device : String) : fileName device ≠ stagingName device := by
  intro heq
  have hlength := congrArg (List.length ∘ String.toList) heq
  simp [stagingName] at hlength
  omega

/-- What a write of a blob for a device makes of the directory at a location. -/
structure Written (directory : Path) (device : String) (blob : Bytes) (parent : Location)
    (made last : FileSystem) : Prop where
  staging : made.Place directory (stagingName device) parent
  place : made.Place directory (fileName device) parent
  workingDirectory : last.workingDirectory = made.workingDirectory
  sound : last.Sound
  node? : ∃ number, ∀ location, last.node? location =
    if location = parent ++ [fileName device] then some (.file number blob)
    else if location = parent ++ [stagingName device] then none else made.node? location

theorem written_of_steps {created : FileSystem} {handle : Handle} (hsound : made.Sound)
    (hcreate : made.create (stagingPath directory device) = .ok (handle, created))
    (hrename : (created.write handle blob).2.rename (stagingPath directory device)
      (blobPath directory device) = .ok last) :
    ∃ parent, Written directory device blob parent made last := by
  obtain ⟨parent, hstaging, hplace⟩ := ready_of_steps hcreate hrename
  have hcreated := created_of_create hcreate
  have hspares := hcreated.spares hsound
  have hwritten := FileSystem.spares_write hspares.sound hcreated.node?_self blob
  have hblob := node?_write_created hcreated.position hcreated.node?_self blob
  have hmoved := moved_of_rename hrename
  rw [hwritten.workingDirectory, hspares.workingDirectory] at hmoved
  rw [stagingPath, hstaging.target_eq] at hcreated hspares hwritten hblob hmoved
  rw [blobPath, hplace.target_eq] at hmoved
  obtain ⟨number, bytes, hsource, hnodes⟩ := hmoved.node?
  rw [hblob] at hsource
  cases hsource
  refine ⟨parent, hstaging, hplace, ?_, hmoved.sound hwritten.sound, handle.number, ?_⟩
  · rw [hmoved.workingDirectory, hwritten.workingDirectory, hspares.workingDirectory]
  · intro location
    rw [hnodes]
    split
    · rfl
    · split
      · rfl
      · rename_i hother
        rw [node?_write_of_ne hspares.sound hcreated.node?_self blob hother, hcreated.node?,
          if_neg hother]

/-- Every write that goes well has this effect, once the directory has been made sure of. -/
theorem written_of_run_write (hsound : files.Sound)
    (h : (write directory device blob).run.run files = (.ok (), last)) :
    ∃ made parent, (ensure directory).run.run files = (.ok (), made) ∧
      files.Spares [] made ∧ Written directory device blob parent made last := by
  obtain ⟨made, handle, created, hensure, hcreate, hrename⟩ := steps_of_run_write h
  have hspares := @spares_ensure _ [] directory files hsound rfl
  rw [hensure] at hspares
  obtain ⟨parent, hwritten⟩ := written_of_steps hspares.sound hcreate hrename
  exact ⟨made, parent, hensure, hspares, hwritten⟩

namespace Written

variable (h : Written directory device blob parent made last)

include h

theorem node?_file : ∃ number, last.node? (parent ++ [fileName device]) = some (.file number blob) := by
  obtain ⟨number, hnodes⟩ := h.node?
  exact ⟨number, (hnodes _).trans (if_pos rfl)⟩

theorem node?_staging : last.node? (parent ++ [stagingName device]) = none := by
  obtain ⟨number, hnodes⟩ := h.node?
  have hother : parent ++ [stagingName device] ≠ parent ++ [fileName device] := by
    intro heq
    exact fileName_ne_stagingName device (List.singleton_inj.mp (List.append_cancel_left heq)).symm
  rw [hnodes, if_neg hother, if_pos rfl]

/-- Any other name has what it had. -/
theorem node?_other {name : String} (hfile : name ≠ fileName device)
    (hstaging : name ≠ stagingName device) :
    last.node? (parent ++ [name]) = made.node? (parent ++ [name]) := by
  obtain ⟨number, hnodes⟩ := h.node?
  have hplace : ∀ {other}, name ≠ other → parent ++ [name] ≠ parent ++ [other] := by
    intro other hne heq
    exact hne (List.singleton_inj.mp (List.append_cancel_left heq))
  rw [hnodes, if_neg (hplace hfile), if_neg (hplace hstaging)]

theorem sameDirectories : made.SameDirectories last where
  workingDirectory := h.workingDirectory
  isDirectoryAt location := by
    obtain ⟨number, hnodes⟩ := h.node?
    have hfile := h.place.free
    have hstaging := h.staging.free
    unfold isDirectoryAt at hfile hstaging ⊢
    rw [hnodes]
    split
    · rename_i heq
      rw [heq, hfile]
      rfl
    · split
      · rename_i heq
        rw [heq, hstaging]
        rfl
      · rfl

theorem leadsTo : last.LeadsTo directory parent := h.place.leadsTo.same h.sameDirectories

end Written

/-! ## Reading an entry of the directory -/

/-- A read is decided by the entry with the name of the file. -/
theorem run_read_of_entry (h : files.LeadsTo directory parent) (device : String) :
    (read directory device).run.run files =
      (answerOf (checkPath (blobPath directory device) >>= fun _ =>
        entryBytes (fileName device) (files.node? (parent ++ [fileName device]))), files) := by
  rw [run_read, blobPath, read_join (plain_fileName device) h]

end DirectoryStore

end CamStream

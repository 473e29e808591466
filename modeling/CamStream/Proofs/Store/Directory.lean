import CamStream.Proofs.Files.Directories
import CamStream.Store.Directory

/-!
# Writing to a directory

A store in a directory that can be written to once can be written to ever after: the first write
makes the directory if need be, and from then on the two files of a device have their places there.

* `DirectoryStore.run_read`: what is read is what the file holds, up to the limit.
* `DirectoryStore.run_write`: with places for its two files, every write for a device succeeds, and
  the file holds the blob afterwards.
* `DirectoryStore.Healthy.run_write`: so it is if any write succeeds, whatever it would write.
* `DirectoryStore.Healthy.run_write_other`: and so it stays, whatever is written for other devices.
-/

namespace CamStream

open FileSystem

namespace DirectoryStore

variable {directory : Path} {device : String} {files : FileSystem}

/-! ## The names of the files -/

theorem isNameChar_of_mem_fileName {c : Char} (h : c ∈ (fileName device).toList) :
    isNameChar c = true := by
  have hdefault : "default".toList.all isNameChar = true := by decide
  unfold fileName at h
  extract_lets name at h
  split at h
  · exact List.all_eq_true.mp hdefault c h
  · obtain ⟨d, -, hd⟩ : ∃ d ∈ device.toList, (if isNameChar d then d else '_') = c := by
      simpa [name] using h
    split at hd
    · rw [← hd]
      assumption
    · rw [← hd]
      decide

theorem isNameChar_of_mem_stagingName {c : Char} (h : c ∈ (stagingName device).toList) :
    isNameChar c = true := by
  have hdot : ".".toList.all isNameChar = true := by decide
  have hend : ".tmp".toList.all isNameChar = true := by decide
  simp only [stagingName, String.toList_append, List.mem_append] at h
  rcases h with (h | h) | h
  · exact List.all_eq_true.mp hdot c h
  · exact isNameChar_of_mem_fileName h
  · exact List.all_eq_true.mp hend c h

theorem plain_fileName (device : String) : Path.Plain (fileName device) := by
  have hslash : '/' ∉ (fileName device).toList := by
    intro hmem
    exact absurd (isNameChar_of_mem_fileName hmem) (by decide)
  have hname : fileName device ≠ "" ∧ fileName device ≠ "." ∧ fileName device ≠ ".." := by
    unfold fileName
    extract_lets name
    split
    · decide
    · rename_i hname
      simpa [not_or, and_assoc] using hname
  exact ⟨hslash, hname.1, hname.2.1, hname.2.2⟩

theorem plain_stagingName (device : String) : Path.Plain (stagingName device) := by
  have hslash : '/' ∉ (stagingName device).toList := by
    intro hmem
    exact absurd (isNameChar_of_mem_stagingName hmem) (by decide)
  have hchars : (stagingName device).toList =
      '.' :: (fileName device).toList ++ ['.', 't', 'm', 'p'] := by
    simp [stagingName]
  refine ⟨hslash, ?_, ?_, ?_⟩
  all_goals
    intro heq
    have hlength := congrArg (List.length ∘ String.toList) heq
    simp [hchars] at hlength

/-- A name that a file can have is kept. -/
theorem fileName_eq_self (h : ∀ c ∈ device.toList, isNameChar c = true)
    (hname : device ≠ "" ∧ device ≠ "." ∧ device ≠ "..") : fileName device = device := by
  have hchars : device.toList.map (fun c => if isNameChar c then c else '_') = device.toList := by
    rw [List.map_congr_left fun c hc => if_pos (h c hc), List.map_id']
  simp [fileName, hchars, hname]

theorem size_stagingName (device : String) :
    (stagingName device).utf8ByteSize = (fileName device).utf8ByteSize + 5 := by
  have hdot : (".": String).utf8ByteSize = 1 := by decide
  have hend : (".tmp" : String).utf8ByteSize = 4 := by decide
  simp only [stagingName, String.utf8ByteSize_append, hdot, hend]
  omega

/-! ## Reading -/

/-- The answer to a read, by what reading the file comes to. -/
def answerOf : Except FileError Bytes → Except FileError (Option Bytes)
  | .ok blob => .ok (some (blob.take maxBlobSize))
  | .error error => if error = .notFound then .ok none else .error error

theorem run_read (directory : Path) (device : String) (files : FileSystem) :
    (read directory device).run.run files =
      (answerOf (files.read (blobPath directory device)), files) := by
  rw [read, Script.run_tryCatch, Script.run_fallible_bind, Script.run_read]
  cases files.read (blobPath directory device) with
  | ok bytes => rfl
  | error error =>
    by_cases hmissing : error = .notFound <;> simp [answerOf, Except.map, hmissing]

/-! ## Writing -/

/-- Both files of a device have their places in the directory. -/
def Ready (directory : Path) (device : String) (files : FileSystem) : Prop :=
  ∃ parent, files.Place directory (stagingName device) parent ∧
    files.Place directory (fileName device) parent

/-- There is nothing to make. -/
theorem run_ensure_of_there (h : directory.text = "" ∨ files.isDirectory directory = true) :
    (ensure directory).run.run files = (.ok (), files) := by
  rw [ensure, Script.run_fallible_bind, Script.run_fallible_request]
  rcases h with hempty | hthere
  · simp [Script.answer, hempty]
  · simp [Script.answer, hthere]

theorem Ready.run_ensure (h : Ready directory device files) :
    (ensure directory).run.run files = (.ok (), files) := by
  obtain ⟨parent, hstaging, -⟩ := h
  apply run_ensure_of_there
  by_cases hempty : directory.text = ""
  · exact Or.inl hempty
  · exact Or.inr (hstaging.isDirectory_path hempty)

theorem Ready.run_write (h : Ready directory device files) (blob : Bytes) :
    ∃ last, (write directory device blob).run.run files = (.ok (), last) ∧
      Ready directory device last ∧ last.read (blobPath directory device) = .ok blob := by
  have hensure := h.run_ensure
  obtain ⟨parent, hstaging, hblob⟩ := h
  obtain ⟨handle, created, hcreate, hposition, hcreated, hempty⟩ := hstaging.create
  have hstaged := node?_write_created hposition hempty blob
  have hwritten := hcreated.trans (sameDirectories_write created handle blob)
  obtain ⟨last, hrename, hmoved, hnode⟩ :=
    (hstaging.same hwritten).rename (hblob.same hwritten) hstaged
  have hlast := hwritten.trans hmoved
  refine ⟨last, ?_, ⟨parent, hstaging.same hlast, hblob.same hlast⟩,
    (hblob.same hlast).read hnode⟩
  refine Script.run_fallible_bind_eq_ok_iff.mpr ⟨(), files, hensure, ?_⟩
  refine Script.run_fallible_bind_eq_ok_iff.mpr
    ⟨handle, created, Script.run_create_eq_ok_iff.mpr hcreate, ?_⟩
  refine Script.run_fallible_bind_eq_ok_iff.mpr ⟨_, _, Script.run_write _ _ _, ?_⟩
  refine Script.run_fallible_bind_eq_ok_iff.mpr ⟨_, _, Script.run_sync _ _, ?_⟩
  exact Script.run_rename_eq_ok_iff.mpr hrename

/-- The steps of a write that succeeds. -/
theorem steps_of_run_write {blob : Bytes} {last : FileSystem}
    (h : (write directory device blob).run.run files = (.ok (), last)) :
    ∃ made handle created, (ensure directory).run.run files = (.ok (), made) ∧
      made.create (stagingPath directory device) = .ok (handle, created) ∧
      (created.write handle blob).2.rename (stagingPath directory device)
        (blobPath directory device) = .ok last := by
  obtain ⟨⟨⟩, made, hensure, h⟩ := Script.run_fallible_bind_eq_ok_iff.mp h
  obtain ⟨handle, created, hcreate, h⟩ := Script.run_fallible_bind_eq_ok_iff.mp h
  obtain ⟨moved, written, hwrite, h⟩ := Script.run_fallible_bind_eq_ok_iff.mp h
  obtain ⟨⟨⟩, synced, hsync, hrename⟩ := Script.run_fallible_bind_eq_ok_iff.mp h
  cases hwrite
  cases hsync
  exact ⟨made, handle, created, hensure, Script.run_create_eq_ok_iff.mp hcreate,
    Script.run_rename_eq_ok_iff.mp hrename⟩

/-- Files that could be made and moved had their places. -/
theorem ready_of_steps {made created last : FileSystem} {handle : Handle} {blob : Bytes}
    (hcreate : made.create (stagingPath directory device) = .ok (handle, created))
    (hrename : (created.write handle blob).2.rename (stagingPath directory device)
      (blobPath directory device) = .ok last) : Ready directory device made := by
  obtain ⟨parent, hstaging⟩ := place_of_create (plain_stagingName device) hcreate
  obtain ⟨_, _, hcreate', -, hcreated, -⟩ := hstaging.create
  rw [stagingPath, hcreate'] at hcreate
  cases hcreate
  obtain ⟨other, hplace⟩ := place_of_rename (plain_fileName device) hrename
  -- The directories were the same before the file was made and written.
  have hblob := hplace.same (hcreated.trans (sameDirectories_write created handle blob)).symm
  obtain rfl := hstaging.parent_eq hblob
  exact ⟨other, hstaging, hblob⟩

/-- A write that succeeds has found the places of both files, or made them. -/
theorem ready_of_run_write {blob : Bytes} {last : FileSystem}
    (h : (write directory device blob).run.run files = (.ok (), last)) :
    ∃ made, (ensure directory).run.run files = (.ok (), made) ∧ Ready directory device made := by
  obtain ⟨made, handle, created, hensure, hcreate, hrename⟩ := steps_of_run_write h
  exact ⟨made, hensure, ready_of_steps hcreate hrename⟩

/-- The directory is made once: to make sure of it again changes nothing. -/
theorem Ready.run_write_of_ensure {made : FileSystem} (h : Ready directory device made)
    (hensure : (ensure directory).run.run files = (.ok (), made)) (other : String) (blob : Bytes) :
    (write directory other blob).run.run files = (write directory other blob).run.run made := by
  simp only [write, Script.run_fallible_bind, hensure, h.run_ensure]

theorem Ready.same {after : FileSystem} (h : Ready directory device files)
    (hsame : files.SameDirectories after) : Ready directory device after := by
  obtain ⟨parent, hstaging, hblob⟩ := h
  exact ⟨parent, hstaging.same hsame, hblob.same hsame⟩

/-- Once the directory is there, a write for any device leaves all directories as they are, whatever
comes of it. -/
theorem sameDirectories_run_write (hensure : (ensure directory).run.run files = (.ok (), files))
    (other : String) (blob : Bytes) :
    files.SameDirectories ((write directory other blob).run.run files).2 := by
  rw [write, Script.run_fallible_bind, hensure]
  dsimp only
  rw [Script.run_fallible_bind, Script.run_create]
  cases hcreate : files.create (stagingPath directory other) with
  | error error => exact ⟨rfl, fun _ => rfl⟩
  | ok result =>
    obtain ⟨parent, hplace⟩ := place_of_create (plain_stagingName other) hcreate
    obtain ⟨handle, created, hcreate', hposition, hcreated, hempty⟩ := hplace.create
    obtain rfl : (handle, created) = result := Except.ok.inj (hcreate'.symm.trans hcreate)
    have hstaged := node?_write_created hposition hempty blob
    have hwritten := hcreated.trans (sameDirectories_write created handle blob)
    dsimp only
    rw [Script.run_fallible_bind, Script.run_write]
    dsimp only
    rw [Script.run_fallible_bind, Script.run_sync]
    dsimp only
    rw [Script.run_rename]
    cases hrename : (created.write handle blob).2.rename (stagingPath directory other)
        (blobPath directory other) with
    | error error => exact hwritten
    | ok last =>
      obtain ⟨other, hblob⟩ := place_of_rename (plain_fileName _) hrename
      have hstaging := hplace.same hwritten
      obtain rfl := hstaging.parent_eq hblob
      obtain ⟨moved, hrename', hmoved, -⟩ := hstaging.rename hblob hstaged
      obtain rfl : moved = last := Except.ok.inj (hrename'.symm.trans hrename)
      exact hwritten.trans hmoved

/-- The store can write for the device: some blob can be written. Then the directory is there or can
be made, both names fit, and no directory stands where the files would be. -/
def Healthy (directory : Path) (device : String) (files : FileSystem) : Prop :=
  ∃ blob last, (write directory device blob).run.run files = (.ok (), last)

theorem Ready.healthy (h : Ready directory device files) : Healthy directory device files := by
  obtain ⟨last, hwrite, -⟩ := h.run_write []
  exact ⟨[], last, hwrite⟩

/-- What can be written once can be written again, whatever it is. -/
theorem Healthy.run_write (h : Healthy directory device files) (blob : Bytes) :
    ∃ last, (write directory device blob).run.run files = (.ok (), last) ∧
      Healthy directory device last ∧ last.read (blobPath directory device) = .ok blob := by
  obtain ⟨_, _, hfirst⟩ := h
  obtain ⟨made, hensure, hready⟩ := ready_of_run_write hfirst
  obtain ⟨last, hwrite, hlast, hread⟩ := hready.run_write blob
  refine ⟨last, ?_, hlast.healthy, hread⟩
  rw [hready.run_write_of_ensure hensure, hwrite]

/-- A write for any device, whatever comes of it, does not take the places of the device away. -/
theorem Healthy.run_write_other (h : Healthy directory device files) (other : String)
    (blob : Bytes) : Healthy directory device ((write directory other blob).run.run files).2 := by
  obtain ⟨_, _, hfirst⟩ := h
  obtain ⟨made, hensure, hready⟩ := ready_of_run_write hfirst
  rw [hready.run_write_of_ensure hensure]
  exact (hready.same (sameDirectories_run_write hready.run_ensure other blob)).healthy

end DirectoryStore

end CamStream

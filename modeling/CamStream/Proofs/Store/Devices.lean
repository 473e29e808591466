import CamStream.Proofs.Files.Growth
import CamStream.Proofs.Store.Effect
import CamStream.Proofs.Store.Restart

/-!
# Whose blob a write replaces

A write for one device should leave what is kept for all others as it is. It does so by file names and
not by devices. Distinct devices can have one file name, as every character that could mean something in
a path is replaced by the same one; then they share a blob. And a device can have the file name that
another one uses for staging; then its blob is overwritten and moved away.

* `DirectoryStore.Written.run_read_same`, `DirectoryStore.Written.run_read_staging`: what such devices
  find after the write.
* `DirectoryStore.Written.run_read_other`: all other devices find what they found before.
* `write_reaches_by_name`: the three cases, on every file system and for every directory.
* `devices_clobbered`: so devices are not kept apart.
-/

namespace CamStream

open FileSystem

/-! ## A directory that was made -/

namespace DirectoryStore

variable {directory path : Path} {paths : List Path} {device second : String} {blob : Bytes}
  {parent : Location} {files made last : FileSystem}

/-- Directories were added on the way to the directory of the store. -/
abbrev Prepared (directory : Path) (files made : FileSystem) : Prop :=
  Grown directory (directory :: directory.ancestors) files made

theorem keeps_makeDirectory_grown (hpath : path ∈ paths) (hway : path.OnTheWay directory) :
    (Script.makeDirectory path).run.Keeps (Grown directory paths) := by
  intro files
  rw [Script.run_makeDirectory]
  cases hmake : files.makeDirectory path privateMode with
  | error error => exact .refl files
  | ok made => exact grown_of_makeDirectory hpath hway.isAbsolute hmake

theorem prepared_of_run_ensure (h : (ensure directory).run.run files = (.ok (), made)) :
    Prepared directory files made := by
  have hkeeps := keeps_ensure (R := Prepared directory) .refl (fun _ _ _ => .trans)
    (fun path hpath => keeps_makeDirectory_grown hpath (Path.onTheWay_of_mem hpath)) files
  rwa [h] at hkeeps

theorem Prepared.node?_missing (h : Prepared directory files made) (hrooted : files.Rooted)
    (hup : files.NoUpBehind (files.origin directory) directory.steps)
    (hwalk : files.walk (files.origin directory) directory.steps = .error .notFound) (name : String) :
    made.node? (target files.workingDirectory directory ++ [name]) = none :=
  Grown.node?_missing h (fun _ => Path.onTheWay_of_mem) hrooted hup hwalk name

/-- No device loses or gains anything by a directory that is made. Only a name that is too long for a
file is noticed when there is a directory, and not before. -/
theorem read_of_made (hrooted : files.Rooted)
    (hup : files.NoUpBehind (files.origin directory) directory.steps)
    (hensure : (ensure directory).run.run files = (.ok (), made))
    (hleads : made.LeadsTo directory (target files.workingDirectory directory)) (second : String) :
    ParameterSets.inAnswer? ((read directory second).run.run made).1 =
        ParameterSets.inAnswer? ((read directory second).run.run files).1 ∧
      ((fileName second).utf8ByteSize ≤ maxNameSize →
        ((read directory second).run.run made).1 = ((read directory second).run.run files).1) := by
  rcases walk_of_run_ensure hensure with rfl | hwalk
  · exact ⟨rfl, fun _ => rfl⟩
  · have hnothing := (prepared_of_run_ensure hensure).node?_missing hrooted hup hwalk (fileName second)
    have hmissing := read_join_of_notFound (plain_fileName second) hwalk
    rw [run_read_of_entry hleads, hnothing, run_read, blobPath, hmissing, entryBytes]
    cases checkPath (directory.join (fileName second)) with
    | error error =>
      simp only [bind, Except.bind]
      exact ⟨trivial, fun _ => trivial⟩
    | ok _ =>
      by_cases hlong : maxNameSize < (fileName second).utf8ByteSize
      · rw [if_pos hlong]
        exact ⟨rfl, fun hfits => absurd hlong (Nat.not_lt.mpr hfits)⟩
      · rw [if_neg hlong]
        exact ⟨rfl, fun _ => rfl⟩

/-! ## What is found after a write -/

namespace Written

variable (h : Written directory device blob parent made last)

include h

/-- A device with the same file name finds the blob. -/
theorem run_read_same (hname : fileName second = fileName device) :
    (read directory second).run.run last = (.ok (some (blob.take maxBlobSize)), last) := by
  obtain ⟨number, hnode⟩ := h.node?_file
  have hfits := Nat.not_lt.mpr h.place.fits
  rw [run_read_of_entry h.leadsTo, blobPath, hname, h.place.path, hnode, entryBytes, if_neg hfits]
  rfl

/-- A device with the name of the staging file finds nothing. -/
theorem run_read_staging (hname : fileName second = stagingName device) :
    (read directory second).run.run last = (.ok none, last) := by
  have hfits := Nat.not_lt.mpr h.staging.fits
  rw [run_read_of_entry h.leadsTo, blobPath, hname, h.staging.path, h.node?_staging, entryBytes,
    if_neg hfits]
  rfl

/-- Any other device finds what it found when the directory had been made sure of. -/
theorem run_read_other (hfile : fileName second ≠ fileName device)
    (hstaging : fileName second ≠ stagingName device) :
    ((read directory second).run.run last).1 = ((read directory second).run.run made).1 := by
  rw [run_read_of_entry h.leadsTo, run_read_of_entry h.place.leadsTo, h.node?_other hfile hstaging]

end Written

end DirectoryStore

/-- What a store gives back for a device: the answer to a read, and the pair that is loaded. -/
def BlobStore.given {σ : Type} (store : BlobStore (StateM σ)) (device : String) (world : σ) :
    Except FileError (Option Bytes) × Option ParameterSets :=
  (((store.read device).run world).1, ((store.load device).run world).1)

theorem BlobStore.given_onFiles (directory : Path) (device : String) (files : FileSystem) :
    (BlobStore.onFiles directory).given device files =
      (((DirectoryStore.read directory device).run.run files).1,
        ParameterSets.inAnswer? ((DirectoryStore.read directory device).run.run files).1) := by
  rw [given, run_load]
  rfl

/-- **A write reaches as far as the names of files do.** Let a write go well, of any blob for any device
into any directory of a tree of files. Then of every device, be it the same or another one:

* If it has the same file name, it has that blob now, read up to the limit.
* If its file name is that of the staging file, it has nothing now.
* Otherwise, if the directory was there, it has what it had: the same answer to a read, the same pair to
  load.
* Otherwise, if the directory had to be made, the same holds where no `..` stands behind the part of its
  path that was there; only that a name too long for a file is told by a read once there is a
  directory. -/
theorem write_reaches_by_name {directory : Path} {files last : FileSystem} {first : String}
    {blob : Bytes} (hsound : files.Sound) (hrooted : files.Rooted)
    (hwrite : ((BlobStore.onFiles directory).write first blob).run files = (.ok (), last))
    (second : String) :
    let store := BlobStore.onFiles directory
    let name := DirectoryStore.fileName second
    (name = DirectoryStore.fileName first →
      store.given second last =
        (.ok (some (blob.take 2048)), ParameterSets.ofBlob? (blob.take 2048))) ∧
    (name = DirectoryStore.stagingName first → store.given second last = (.ok none, none)) ∧
    (name ≠ DirectoryStore.fileName first → name ≠ DirectoryStore.stagingName first →
      (directory.text = "" ∨ files.isDirectory directory = true →
        store.given second last = store.given second files) ∧
      (files.NoUpBehind (files.origin directory) directory.steps →
        (store.given second last).2 = (store.given second files).2 ∧
        (name.utf8ByteSize ≤ 255 → store.given second last = store.given second files))) := by
  intro store name
  obtain ⟨made, parent, hensure, hspares, hwritten⟩ :=
    DirectoryStore.written_of_run_write hsound hwrite
  refine ⟨fun hname => ?_, fun hname => ?_, fun hfile hstaging => ⟨fun hthere => ?_, fun hup => ?_⟩⟩
  · rw [BlobStore.given_onFiles, hwritten.run_read_same hname]
    rfl
  · rw [BlobStore.given_onFiles, hwritten.run_read_staging hname]
    rfl
  · have hother := hwritten.run_read_other hfile hstaging
    rw [DirectoryStore.run_ensure_of_there hthere] at hensure
    cases hensure
    rw [BlobStore.given_onFiles, BlobStore.given_onFiles, hother]
  · have hother := hwritten.run_read_other hfile hstaging
    have hparent : parent = target files.workingDirectory directory := by
      rw [← hspares.workingDirectory]
      exact follow_of_walk hwritten.place.walk
    have hleads := hwritten.place.leadsTo
    rw [hparent] at hleads
    obtain ⟨hload, hread⟩ := DirectoryStore.read_of_made hrooted hup hensure hleads second
    rw [BlobStore.given_onFiles, BlobStore.given_onFiles, hother]
    refine ⟨hload, fun hfits => ?_⟩
    rw [hread hfits]

/-- The first write into a directory, seen by a device with the same file name, by one that is named like
the staging file and by one that has nothing to do with it. -/
theorem write_reaches_by_name_three :
    let store := BlobStore.onFiles ⟨"/work/.spspps"⟩
    let files := FileSystem.emptyWorkspace.1
    let last := ((store.write "cam_0" [2]).run files).2
    files.Sound ∧ files.Rooted ∧ (store.write "cam_0" [2]).run files = (.ok (), last) ∧
      store.given "cam:0" last = (.ok (some [2]), none) ∧
      store.given ".cam_0.tmp" last = (.ok none, none) ∧
      store.given "1" last = store.given "1" files := by
  intro store files last
  have hanswer : ((store.write "cam_0" [2]).run files).1 = .ok () := by decide +kernel
  have hwrite : (store.write "cam_0" [2]).run files = (.ok (), last) := Prod.ext hanswer rfl
  have hreaches := write_reaches_by_name sound_emptyWorkspace rooted_emptyWorkspace hwrite
  have hother := (hreaches "1").2.2 (by decide +kernel) (by decide +kernel)
  refine ⟨sound_emptyWorkspace, rooted_emptyWorkspace, hwrite, ?_, ?_, ?_⟩
  · exact ((hreaches "cam:0").1 (by decide +kernel)).trans (by decide +kernel)
  · exact (hreaches ".cam_0.tmp").2.1 (by decide +kernel)
  · exact (hother.2 (noUpBehind_of_not_mem (by decide +kernel))).2 (by decide +kernel)

/-- Two devices with one file name: the second write replaces the blob of the first. And a device with the
name of a staging file: the write of another one takes its blob away. -/
theorem devices_clobbered :
    let store := BlobStore.onFiles ⟨"/work/.spspps"⟩
    let files := FileSystem.emptyWorkspace.1
    let blob := ParameterSets.builtIn.toBlob
    let shared := ((store.write "cam:0" blob).run files).2
    let staged := ((store.write ".cam.tmp" blob).run files).2
    ("cam:0" ≠ "cam_0" ∧ ((store.write "cam_0" [2]).run shared).1 = .ok () ∧
      store.given "cam:0" shared = (.ok (some blob), some .builtIn) ∧
      store.given "cam:0" ((store.write "cam_0" [2]).run shared).2 = (.ok (some [2]), none)) ∧
    (".cam.tmp" ≠ "cam" ∧ ((store.write "cam" [2]).run staged).1 = .ok () ∧
      store.given ".cam.tmp" staged = (.ok (some blob), some .builtIn) ∧
      store.given ".cam.tmp" ((store.write "cam" [2]).run staged).2 = (.ok none, none)) := by
  decide +kernel

end CamStream

import CamStream.Proofs.Files.Ancestors
import CamStream.Proofs.Store.Effect
import CamStream.Proofs.Store.Restart

/-!
# A store in a directory is a map

A store in a directory that nobody else uses is, to whoever calls it, a map from file names to blobs.
Devices whose names are made alike share one entry of the map, and of a blob no more is read back than
the limit allows. Apart from these two things it is the store in memory.

For this the names of the files must fit, with room for the staging name, and no device may be named
like the staging file of another one: that file would be overwritten and moved away. And the paths of
the staging files must not be too long. That a directory can be made does not see to that: its own path
can be nearly as long as paths can be.

* `BlobStore.Simulates.callAll`: what answers alike in single reads and writes does so in whole runs.
* `BlobStore.simulates_memory`: the map and the store in memory.
* `DirectoryStore.Stocked.run_write`: one write, with the directory there; the files are the entries of the
  map before and after it.
* `DirectoryStore.fresh_join`: a directory that can be made.
* `directory_refines_map`: so it is for all sequences of calls, on a file system where the directory is
  there or can be made.
* `long_path_refused`: not so for paths of any length.
-/

namespace CamStream

open FileSystem

/-! ## Calls of a store -/

inductive StoreCall where
  | read (device : String)
  | write (device : String) (blob : Bytes)
  | load (device : String)
  | save (device : String) (sets : ParameterSets)
deriving DecidableEq, Repr

namespace StoreCall

def device : StoreCall → String
  | read device | write device _ | load device | save device _ => device

/-- The blob to keep, if there is one. -/
def blob? : StoreCall → Option Bytes
  | write _ blob => some blob
  | save _ sets => some sets.toBlob
  | read _ | load _ => none

/-- One of the calls is about the device. -/
def Uses (calls : List StoreCall) (device : String) : Prop := ∃ call ∈ calls, call.device = device

end StoreCall

inductive StoreAnswer where
  | found (answer : Except FileError (Option Bytes))
  | kept (answer : Except FileError Unit)
  | loaded (sets? : Option ParameterSets)
deriving DecidableEq, Repr

namespace BlobStore

def call {m : Type → Type} [Monad m] (store : BlobStore m) : StoreCall → m StoreAnswer
  | .read device => return .found (← store.read device)
  | .write device blob => return .kept (← store.write device blob)
  | .load device => return .loaded (← store.load device)
  | .save device sets => return .kept (← store.save device sets)

def callAll {m : Type → Type} [Monad m] (store : BlobStore m) (calls : List StoreCall) :
    m (List StoreAnswer) :=
  calls.mapM store.call

section Runs

variable {σ τ : Type} (store : BlobStore (StateM σ)) (spec : BlobStore (StateM τ))

/-- The answers to calls, in order. -/
def answers (world : σ) (calls : List StoreCall) : List StoreAnswer :=
  ((store.callAll calls).run world).1

/-- The world after calls. -/
def after (world : σ) (calls : List StoreCall) : σ := ((store.callAll calls).run world).2

theorem run_callAll_cons (call : StoreCall) (calls : List StoreCall) (world : σ) :
    (store.callAll (call :: calls)).run world =
      let first := (store.call call).run world
      (first.1 :: store.answers first.2 calls, store.after first.2 calls) := by
  simp only [callAll, List.mapM_cons, StateT.run_bind]
  rfl

theorem answers_cons (call : StoreCall) (calls : List StoreCall) (world : σ) :
    store.answers world (call :: calls) =
      ((store.call call).run world).1 :: store.answers ((store.call call).run world).2 calls := by
  rw [answers, run_callAll_cons]

theorem after_cons (call : StoreCall) (calls : List StoreCall) (world : σ) :
    store.after world (call :: calls) = store.after ((store.call call).run world).2 calls := by
  rw [after, run_callAll_cons]

/-- In worlds that match, both stores answer reads and writes alike, and the worlds match afterwards.
Only some devices and blobs need be taken into account. -/
structure Simulates (Device : String → Prop) (Blob : Bytes → Prop) (Match : σ → τ → Prop) :
    Prop where
  read {world : σ} {shelf : τ} {device : String} (h : Match world shelf) (hdevice : Device device) :
    ((store.read device).run world).1 = ((spec.read device).run shelf).1 ∧
      Match ((store.read device).run world).2 ((spec.read device).run shelf).2
  write {world : σ} {shelf : τ} {device : String} {blob : Bytes} (h : Match world shelf)
    (hdevice : Device device) (hblob : Blob blob) :
    ((store.write device blob).run world).1 = ((spec.write device blob).run shelf).1 ∧
      Match ((store.write device blob).run world).2 ((spec.write device blob).run shelf).2

namespace Simulates

variable {store spec} {Device : String → Prop} {Blob : Bytes → Prop} {Match : σ → τ → Prop}
  {world : σ} {shelf : τ}

/-- Loading is a read and saving is a write. -/
theorem call (h : store.Simulates spec Device Blob Match) (hmatch : Match world shelf)
    {call : StoreCall} (hdevice : Device call.device) (hblob : ∀ blob ∈ call.blob?, Blob blob) :
    ((store.call call).run world).1 = ((spec.call call).run shelf).1 ∧
      Match ((store.call call).run world).2 ((spec.call call).run shelf).2 := by
  cases call with
  | read device =>
    obtain ⟨hanswer, hlast⟩ := h.read hmatch hdevice
    exact ⟨congrArg StoreAnswer.found hanswer, hlast⟩
  | load device =>
    have hdevice : Device device := hdevice
    obtain ⟨hanswer, hlast⟩ := h.read hmatch hdevice
    have hload : ((store.load device).run world).1 = ((spec.load device).run shelf).1 := by
      rw [run_load, run_load, hanswer]
    refine ⟨congrArg StoreAnswer.loaded hload, ?_⟩
    show Match ((store.load device).run world).2 ((spec.load device).run shelf).2
    rw [run_load, run_load]
    exact hlast
  | write device blob =>
    obtain ⟨hanswer, hlast⟩ := h.write hmatch hdevice (hblob blob rfl)
    exact ⟨congrArg StoreAnswer.kept hanswer, hlast⟩
  | save device sets =>
    obtain ⟨hanswer, hlast⟩ := h.write hmatch hdevice (hblob sets.toBlob rfl)
    exact ⟨congrArg StoreAnswer.kept hanswer, hlast⟩

theorem callAll (h : store.Simulates spec Device Blob Match) (hmatch : Match world shelf)
    {calls : List StoreCall} (hdevice : ∀ call ∈ calls, Device call.device)
    (hblob : ∀ call ∈ calls, ∀ blob ∈ call.blob?, Blob blob) :
    store.answers world calls = spec.answers shelf calls ∧
      Match (store.after world calls) (spec.after shelf calls) := by
  induction calls generalizing world shelf with
  | nil => exact ⟨rfl, hmatch⟩
  | cons call calls ih =>
    obtain ⟨hanswer, hnext⟩ :=
      h.call hmatch (hdevice call List.mem_cons_self) (hblob call List.mem_cons_self)
    obtain ⟨hanswers, hlast⟩ := ih hnext
      (fun other hother => hdevice other (List.mem_cons_of_mem _ hother))
      (fun other hother => hblob other (List.mem_cons_of_mem _ hother))
    simp only [answers_cons, after_cons]
    exact ⟨congrArg₂ List.cons hanswer hanswers, hlast⟩

end Simulates

end Runs

/-! ## The map -/

/-- Blobs by the names of their files. No more is read back than the limit allows. -/
def byName : BlobStore (StateM Shelf) where
  read device := do
    let shelf ← get
    return .ok ((KeyedList.get? shelf (DirectoryStore.fileName device)).map
      (·.take DirectoryStore.maxBlobSize))
  write device blob := do
    modify fun shelf => shelf.put (DirectoryStore.fileName device) blob
    return .ok ()

theorem kept_byName {calls : List StoreCall} {shelf : Shelf} {answer : Except FileError Unit}
    (h : .kept answer ∈ byName.answers shelf calls) : answer = .ok () := by
  induction calls generalizing shelf with
  | nil => cases h
  | cons call calls ih =>
    rw [answers_cons] at h
    rcases List.mem_cons.mp h with hfirst | hrest
    · cases call with
      | read device => cases hfirst
      | load device => cases hfirst
      | write | save => exact StoreAnswer.kept.inj hfirst
    · exact ih hrest

/-- With names that are kept as they are and blobs within the limit, the map is the store in
memory. -/
theorem simulates_memory :
    byName.Simulates memory (fun device => DirectoryStore.fileName device = device)
      (fun blob => blob.length ≤ DirectoryStore.maxBlobSize)
      fun shelf other => shelf = other ∧ ∀ name blob, KeyedList.get? shelf name = some blob →
        blob.length ≤ DirectoryStore.maxBlobSize where
  read := by
    rintro shelf _ device ⟨rfl, hshelf⟩ hdevice
    refine ⟨?_, rfl, hshelf⟩
    show Except.ok ((KeyedList.get? shelf (DirectoryStore.fileName device)).map
      (·.take DirectoryStore.maxBlobSize)) = Except.ok (KeyedList.get? shelf device)
    rw [hdevice]
    cases hfound : KeyedList.get? shelf device with
    | none => rfl
    | some blob => rw [Option.map_some, List.take_of_length_le (hshelf device blob hfound)]
  write := by
    rintro shelf _ device blob ⟨rfl, hshelf⟩ hdevice hblob
    have hshelves : ((byName.write device blob).run shelf).2 = shelf.put device blob :=
      congrArg (KeyedList.put shelf · blob) hdevice
    refine ⟨rfl, hshelves, ?_⟩
    rw [hshelves]
    intro name found hfound
    rw [KeyedList.get?_put] at hfound
    split at hfound
    · cases hfound
      exact hblob
    · exact hshelf name found hfound

end BlobStore

/-! ## The files of the map -/

/-- The entries of a directory are files, one for each name on the shelf, with the blob that lies there.
There are no other entries. -/
structure FileSystem.Holds (files : FileSystem) (place : Location) (shelf : Shelf) : Prop where
  file {name : String} {blob : Bytes} (h : KeyedList.get? shelf name = some blob) :
    ∃ number, files.node? (place ++ [name]) = some (.file number blob)
  nothing {name : String} (h : KeyedList.get? shelf name = none) :
    files.node? (place ++ [name]) = none

/-- The entries of such a directory are no directories. -/
theorem FileSystem.Holds.isDirectoryAt {files : FileSystem} {place : Location} {shelf : Shelf}
    (h : files.Holds place shelf) (name : String) : files.isDirectoryAt (place ++ [name]) = false := by
  unfold FileSystem.isDirectoryAt
  cases hfound : KeyedList.get? shelf name with
  | none =>
    rw [h.nothing hfound]
    rfl
  | some blob =>
    obtain ⟨number, hnode⟩ := h.file hfound
    rw [hnode]
    rfl

namespace DirectoryStore

/-- The files of the devices can be named: there are such paths, the names have at most 250 bytes, and no
device is named like the staging file of one. -/
structure Suits (directory : Path) (Device : String → Prop) : Prop where
  path {device : String} (h : Device device) : checkPath (stagingPath directory device) = .ok ()
  fits {device : String} (h : Device device) : (fileName device).utf8ByteSize ≤ 250
  apart {device other : String} (h : Device device) (hother : Device other) :
    fileName device ≠ stagingName other

/-- The directory is there, and its entries are the files of a shelf of blobs for the devices. -/
structure Stocked (directory : Path) (Device : String → Prop) (place : Location)
    (files : FileSystem) (shelf : Shelf) : Prop where
  sound : files.Sound
  leadsTo : files.LeadsTo directory place
  holds : files.Holds place shelf
  named {name : String} {blob : Bytes} (h : KeyedList.get? shelf name = some blob) :
    ∃ device, Device device ∧ name = fileName device

variable {directory : Path} {Device : String → Prop} {place : Location} {device : String}

namespace Suits

variable (h : Suits directory Device)

include h

theorem checkPath_blobPath (hdevice : Device device) :
    checkPath (blobPath directory device) = .ok () := by
  refine checkPath_join_of_shorter (plain_fileName device) ?_ ?_ (h.path hdevice)
  · intro hmem
    exact absurd (isNameChar_of_mem_fileName hmem) (by decide)
  · rw [size_stagingName]
    omega

theorem stagingName_fits (hdevice : Device device) :
    (stagingName device).utf8ByteSize ≤ maxNameSize := by
  have hfits := h.fits hdevice
  rw [size_stagingName, maxNameSize]
  omega

end Suits

namespace Stocked

variable {files : FileSystem} {shelf : Shelf}

theorem ready (h : Stocked directory Device place files shelf) (hsuits : Suits directory Device)
    (hdevice : Device device) : Ready directory device files := by
  have hfits : (fileName device).utf8ByteSize ≤ maxNameSize :=
    Nat.le_trans (hsuits.fits hdevice) (by decide)
  refine ⟨place, ?_, ?_⟩
  · exact ⟨plain_stagingName device, hsuits.path hdevice, h.leadsTo.walk,
      h.leadsTo.isDirectory, hsuits.stagingName_fits hdevice, h.holds.isDirectoryAt _⟩
  · exact ⟨plain_fileName device, hsuits.checkPath_blobPath hdevice, h.leadsTo.walk,
      h.leadsTo.isDirectory, hfits, h.holds.isDirectoryAt _⟩

/-- The name of a staging file is not on the shelf. -/
theorem get?_stagingName (h : Stocked directory Device place files shelf)
    (hsuits : Suits directory Device) (hdevice : Device device) :
    KeyedList.get? shelf (stagingName device) = none := by
  cases hfound : KeyedList.get? shelf (stagingName device) with
  | none => rfl
  | some blob =>
    obtain ⟨other, hother, hname⟩ := h.named hfound
    exact absurd hname.symm (hsuits.apart hother hdevice)

/-- A read finds what lies on the shelf, up to the limit. -/
theorem run_read (h : Stocked directory Device place files shelf) (hsuits : Suits directory Device)
    (hdevice : Device device) :
    (read directory device).run.run files =
      (.ok ((KeyedList.get? shelf (fileName device)).map (·.take maxBlobSize)), files) := by
  have hfits : ¬ maxNameSize < (fileName device).utf8ByteSize :=
    Nat.not_lt.mpr (Nat.le_trans (hsuits.fits hdevice) (by decide))
  rw [run_read_of_entry h.leadsTo, hsuits.checkPath_blobPath hdevice]
  cases hfound : KeyedList.get? shelf (fileName device) with
  | none =>
    rw [h.holds.nothing hfound, entryBytes, if_neg hfits]
    rfl
  | some blob =>
    obtain ⟨number, hnode⟩ := h.holds.file hfound
    rw [hnode, entryBytes, if_neg hfits]
    rfl

/-- A write goes well and puts the blob on the shelf. -/
theorem run_write (h : Stocked directory Device place files shelf) (hsuits : Suits directory Device)
    (hdevice : Device device) (blob : Bytes) :
    ∃ last, (write directory device blob).run.run files = (.ok (), last) ∧
      Stocked directory Device place last (shelf.put (fileName device) blob) := by
  have hready := h.ready hsuits hdevice
  obtain ⟨last, hrun, -, -⟩ := hready.run_write blob
  refine ⟨last, hrun, ?_⟩
  obtain ⟨made, parent, hensure, -, hwritten⟩ := written_of_run_write h.sound hrun
  rw [hready.run_ensure] at hensure
  cases hensure
  have hparent : parent = place := by
    have hwalk := hwritten.place.walk
    rw [h.leadsTo.walk] at hwalk
    cases hwalk
    rfl
  subst hparent
  refine ⟨hwritten.sound, hwritten.leadsTo, ⟨?_, ?_⟩, ?_⟩
  · intro name found hfound
    rw [KeyedList.get?_put] at hfound
    split at hfound
    · rename_i hname
      cases hfound
      rw [hname]
      exact hwritten.node?_file
    · rename_i hname
      have hstaging : name ≠ stagingName device := by
        rintro rfl
        rw [h.get?_stagingName hsuits hdevice] at hfound
        cases hfound
      rw [hwritten.node?_other hname hstaging]
      exact h.holds.file hfound
  · intro name hnothing
    rw [KeyedList.get?_put] at hnothing
    split at hnothing
    · cases hnothing
    · rename_i hname
      by_cases hstaging : name = stagingName device
      · rw [hstaging]
        exact hwritten.node?_staging
      · rw [hwritten.node?_other hname hstaging]
        exact h.holds.nothing hnothing
  · intro name found hfound
    rw [KeyedList.get?_put] at hfound
    split at hfound
    · rename_i hname
      exact ⟨device, hdevice, hname⟩
    · exact h.named hfound

end Stocked

/-- The directory holds the files of a shelf; or the shelf is empty and the directory, which is not
there yet, can be made and is then empty. -/
inductive Stands (directory : Path) (Device : String → Prop) (place : Location) :
    FileSystem → Shelf → Prop where
  | there {files : FileSystem} {shelf : Shelf} (h : Stocked directory Device place files shelf) :
    Stands directory Device place files shelf
  | missing {files made : FileSystem}
    (hwalk : files.walk (files.origin directory) directory.steps = .error .notFound)
    (hempty : files.Holds place []) (hensure : (ensure directory).run.run files = (.ok (), made))
    (h : Stocked directory Device place made []) : Stands directory Device place files []

namespace Stands

variable {files : FileSystem} {shelf : Shelf}

theorem holds (h : Stands directory Device place files shelf) : files.Holds place shelf := by
  cases h with
  | there h => exact h.holds
  | missing hwalk hempty hensure h => exact hempty

theorem get?_stagingName (h : Stands directory Device place files shelf)
    (hsuits : Suits directory Device) (hdevice : Device device) :
    KeyedList.get? shelf (stagingName device) = none := by
  cases h with
  | there h => exact h.get?_stagingName hsuits hdevice
  | missing => rfl

theorem run_read (h : Stands directory Device place files shelf) (hsuits : Suits directory Device)
    (hdevice : Device device) :
    (read directory device).run.run files =
      (.ok ((KeyedList.get? shelf (fileName device)).map (·.take maxBlobSize)), files) := by
  cases h with
  | there h => exact h.run_read hsuits hdevice
  | missing hwalk hempty hensure h =>
    have hread := read_join_of_notFound (plain_fileName device) hwalk
    rw [← blobPath, hsuits.checkPath_blobPath hdevice] at hread
    rw [DirectoryStore.run_read, hread]
    rfl

theorem run_write (h : Stands directory Device place files shelf) (hsuits : Suits directory Device)
    (hdevice : Device device) (blob : Bytes) :
    ∃ last, (write directory device blob).run.run files = (.ok (), last) ∧
      Stands directory Device place last (shelf.put (fileName device) blob) := by
  cases h with
  | there h =>
    obtain ⟨last, hrun, hlast⟩ := h.run_write hsuits hdevice blob
    exact ⟨last, hrun, .there hlast⟩
  | missing hwalk hempty hensure h =>
    obtain ⟨last, hrun, hlast⟩ := h.run_write hsuits hdevice blob
    refine ⟨last, ?_, .there hlast⟩
    rw [(h.ready hsuits hdevice).run_write_of_ensure hensure, hrun]

theorem run_ensure (h : Stands directory Device place files shelf) (hsuits : Suits directory Device)
    (hdevice : Device device) : ∃ made, (ensure directory).run.run files = (.ok (), made) := by
  cases h with
  | there h => exact ⟨files, (h.ready hsuits hdevice).run_ensure⟩
  | missing hwalk hempty hensure h => exact ⟨_, hensure⟩

end Stands

/-- The store in the directory and the map answer alike as long as the map says what the directory
holds. -/
theorem simulates_byName (hsuits : Suits directory Device) :
    (BlobStore.onFiles directory).Simulates .byName Device (fun _ => True)
      (Stands directory Device place) where
  read {files shelf device} h hdevice := by
    have hrun : ((BlobStore.onFiles directory).read device).run files =
        (.ok ((KeyedList.get? shelf (fileName device)).map (·.take maxBlobSize)), files) :=
      h.run_read hsuits hdevice
    rw [hrun]
    exact ⟨rfl, h⟩
  write {files shelf device blob} h hdevice _ := by
    obtain ⟨last, hwrite, hlast⟩ := h.run_write hsuits hdevice blob
    have hrun : ((BlobStore.onFiles directory).write device blob).run files = (.ok (), last) := hwrite
    rw [hrun]
    exact ⟨rfl, hlast⟩

/-- A file system on which the directory is there and empty, or can be made and is then empty. -/
structure Fresh (directory : Path) (files : FileSystem) : Prop where
  sound : files.Sound
  made : ∃ made, (ensure directory).run.run files = (.ok (), made) ∧
    made.LeadsTo directory (target files.workingDirectory directory) ∧
    made.Holds (target files.workingDirectory directory) []

theorem Fresh.stands {files : FileSystem} (h : Fresh directory files) (Device : String → Prop) :
    Stands directory Device (target files.workingDirectory directory) files [] := by
  obtain ⟨made, hensure, hleads, hholds⟩ := h.made
  have hspares := @spares_ensure _ [] directory files h.sound rfl
  rw [hensure] at hspares
  have hstocked : Stocked directory Device (target files.workingDirectory directory) made [] := by
    refine ⟨hspares.sound, hleads, hholds, ?_⟩
    intro name blob hfound
    cases hfound
  rcases walk_of_run_ensure hensure with rfl | hwalk
  · exact .there hstocked
  · refine .missing hwalk ⟨?_, ?_⟩ hensure hstocked
    · intro name blob hfound
      cases hfound
    · -- What was there before is still there, so nothing was.
      intro name hnothing
      have hnone := hholds.nothing hnothing
      cases hnode : files.node? (target files.workingDirectory directory ++ [name]) with
      | none => rfl
      | some node =>
        have hstill := hspares.node? List.not_mem_nil (by rw [hnode]; rfl)
        rw [hnone, hnode] at hstill
        cases hstill

/-- The paths of the staging files are refused only for their length. -/
theorem Fresh.checkPath_stagingPath {files : FileSystem} (h : Fresh directory files)
    (device : String) :
    checkPath (stagingPath directory device) =
      if maxPathSize < (stagingPath directory device).text.utf8ByteSize then .error .nameTooLong
      else .ok () := by
  obtain ⟨made, hensure, -, -⟩ := h.made
  exact DirectoryStore.checkPath_stagingPath (checkPath_of_run_ensure hensure) device

/-- In a directory that is there another one can be made, under a name that nothing has. -/
theorem fresh_join {files : FileSystem} {above : Path} {parent : Location} {name : String}
    (hsound : files.Sound) (hrooted : files.Rooted) (hleads : files.LeadsTo above parent)
    (hname : Path.Plain name) (hfits : name.utf8ByteSize ≤ maxNameSize)
    (hpath : checkPath (above.join name) = .ok ()) (hnone : files.node? (parent ++ [name]) = none) :
    Fresh (above.join name) files := by
  have hmake := makeDirectory_join hname hpath hleads hfits hnone privateMode
  have hmade := made_of_makeDirectory hmake
  rw [hleads.target_join hname] at hmade
  have hthere : files.isDirectory (above.join name) = false := by
    unfold FileSystem.isDirectory
    cases hlocate : files.locate (above.join name) with
    | error error => rfl
    | ok location =>
      dsimp only
      rw [target_of_locate hlocate, hleads.target_join hname, FileSystem.isDirectoryAt, hnone]
      rfl
  have hensure := run_ensure_of_not_there (checkPath_eq_ok_iff.mp hpath).2.1 hthere
  rw [hmake] at hensure
  refine ⟨hsound, _, hensure, ?_, ?_⟩
  · rw [hleads.target_join hname]
    exact hleads.made hsound hname hfits hmade
  · rw [hleads.target_join hname]
    refine ⟨?_, ?_⟩
    · intro entry blob hfound
      cases hfound
    · intro entry _
      rw [node?_put _ _ (List.concat_ne_nil name parent), if_neg (by simp)]
      -- Nothing lies below a place where nothing is.
      cases hnode : files.node? (parent ++ [name] ++ [entry]) with
      | none => rfl
      | some node =>
        have habove := hrooted.isSome_node?_of_append (by rw [hnode]; rfl)
        rw [hnone] at habove
        cases habove

end DirectoryStore

/-- **A store in a directory is a map.** Let the directory be there and empty, or such that it can be
made, and call the store any number of times. Let the paths of its staging files have at most 4095 bytes,
which is what the system accepts, the names of its files at most 250 bytes, and no device be named like
the staging file of one.

* Every answer is that of a map from file names to blobs: a read finds the first 2048 bytes of the blob
  that was last written for a device with the same file name, or nothing if there was none.
* Every write goes well.
* After every call the directory holds one file for each name that was written, with the blob that was
  written last, and nothing else; in particular no staging file.
* If moreover all devices are named like their files and no blob has more than 2048 bytes, the answers
  are those of the store in memory. -/
theorem directory_refines_map {directory : Path} {files : FileSystem}
    (hfresh : DirectoryStore.Fresh directory files) {calls : List StoreCall}
    (hpaths : ∀ call ∈ calls,
      (DirectoryStore.stagingPath directory call.device).text.utf8ByteSize ≤ 4095)
    (hfits : ∀ call ∈ calls, (DirectoryStore.fileName call.device).utf8ByteSize ≤ 250)
    (hapart : ∀ call ∈ calls, ∀ other ∈ calls,
      DirectoryStore.fileName call.device ≠ DirectoryStore.stagingName other.device) :
    let place := target files.workingDirectory directory
    let store := BlobStore.onFiles directory
    store.answers files calls = BlobStore.byName.answers [] calls ∧
      (∀ answer, .kept answer ∈ store.answers files calls → answer = .ok ()) ∧
      (∀ before, before <+: calls →
        (store.after files before).Holds place (BlobStore.byName.after [] before) ∧
        ∀ call ∈ calls, (store.after files before).node?
          (place ++ [DirectoryStore.stagingName call.device]) = none) ∧
      ((∀ call ∈ calls, DirectoryStore.fileName call.device = call.device ∧
          ∀ blob ∈ call.blob?, blob.length ≤ 2048) →
        store.answers files calls = BlobStore.memory.answers [] calls) := by
  intro place store
  have hsuits : DirectoryStore.Suits directory (StoreCall.Uses calls) := by
    refine ⟨?_, ?_, ?_⟩
    · rintro _ ⟨call, hcall, rfl⟩
      exact (hfresh.checkPath_stagingPath _).trans (if_neg (Nat.not_lt.mpr (hpaths call hcall)))
    · rintro _ ⟨call, hcall, rfl⟩
      exact hfits call hcall
    · rintro _ _ ⟨call, hcall, rfl⟩ ⟨other, hother, rfl⟩
      exact hapart call hcall other hother
  have hruns : ∀ before, before <+: calls →
      store.answers files before = BlobStore.byName.answers [] before ∧
        DirectoryStore.Stands directory (StoreCall.Uses calls) place (store.after files before)
          (BlobStore.byName.after [] before) := by
    intro before hbefore
    exact (DirectoryStore.simulates_byName hsuits).callAll (hfresh.stands _)
      (fun call hcall => ⟨call, hbefore.subset hcall, rfl⟩) fun _ _ _ _ => trivial
  obtain ⟨hanswers, -⟩ := hruns calls (List.prefix_refl calls)
  refine ⟨hanswers, ?_, ?_, ?_⟩
  · intro answer hanswer
    rw [hanswers] at hanswer
    exact BlobStore.kept_byName hanswer
  · intro before hbefore
    obtain ⟨-, hstands⟩ := hruns before hbefore
    refine ⟨hstands.holds, fun call hcall => ?_⟩
    exact hstands.holds.nothing (hstands.get?_stagingName hsuits ⟨call, hcall, rfl⟩)
  · intro hplain
    have hnothing : ∀ name blob, KeyedList.get? ([] : Shelf) name = some blob →
        blob.length ≤ DirectoryStore.maxBlobSize := by
      intro name blob hfound
      cases hfound
    have hmemory := BlobStore.simulates_memory.callAll ⟨rfl, hnothing⟩
      (fun call hcall => (hplain call hcall).1) (fun call hcall => (hplain call hcall).2)
    exact hanswers.trans hmemory.1

theorem leadsTo_emptyWorkspace {path : Path} (habsolute : path.isAbsolute = false)
    (hsteps : path.steps = []) : FileSystem.emptyWorkspace.1.LeadsTo path ["work"] := by
  refine ⟨?_, by decide +kernel⟩
  rw [hsteps, origin, habsolute]
  rfl

/-- Two devices that share a file, and a third one. -/
theorem directory_refines_map_shared :
    let directory : Path := ⟨".spspps"⟩
    let files := FileSystem.emptyWorkspace.1
    let calls : List StoreCall :=
      [.read "usb:1", .write "usb:1" [1], .save "0" .builtIn, .load "0", .write "usb_1" [2],
        .read "usb:1"]
    DirectoryStore.Fresh directory files ∧
    (∀ call ∈ calls,
      (DirectoryStore.stagingPath directory call.device).text.utf8ByteSize ≤ 4095) ∧
    (∀ call ∈ calls, (DirectoryStore.fileName call.device).utf8ByteSize ≤ 250) ∧
    (∀ call ∈ calls, ∀ other ∈ calls,
      DirectoryStore.fileName call.device ≠ DirectoryStore.stagingName other.device) ∧
    (BlobStore.onFiles directory).answers files calls =
      [.found (.ok none), .kept (.ok ()), .kept (.ok ()), .loaded (some .builtIn), .kept (.ok ()),
        .found (.ok (some [2]))] ∧
    ((BlobStore.onFiles directory).after files calls).Holds ["work", ".spspps"]
      [("usb_1", [2]), ("0", ParameterSets.builtIn.toBlob)] := by
  intro directory files calls
  have hleads : files.LeadsTo ⟨""⟩ ["work"] := leadsTo_emptyWorkspace rfl (by decide +kernel)
  have hplain : Path.Plain ".spspps" :=
    ⟨by decide +kernel, by decide +kernel, by decide +kernel, by decide +kernel⟩
  have hjoin : Path.join ⟨""⟩ ".spspps" = directory := by decide +kernel
  have hfresh : DirectoryStore.Fresh directory files := by
    rw [← hjoin]
    exact DirectoryStore.fresh_join sound_emptyWorkspace rooted_emptyWorkspace hleads hplain
      (by decide +kernel) (by decide +kernel) (by decide +kernel)
  have hpaths : ∀ call ∈ calls,
      (DirectoryStore.stagingPath directory call.device).text.utf8ByteSize ≤ 4095 := by
    decide +kernel
  have hfits : ∀ call ∈ calls, (DirectoryStore.fileName call.device).utf8ByteSize ≤ 250 := by
    decide +kernel
  have hapart : ∀ call ∈ calls, ∀ other ∈ calls,
      DirectoryStore.fileName call.device ≠ DirectoryStore.stagingName other.device := by
    decide +kernel
  have hmap : BlobStore.byName.after [] calls =
      [("usb_1", [2]), ("0", ParameterSets.builtIn.toBlob)] := by decide +kernel
  have hplace : target files.workingDirectory directory = ["work", ".spspps"] := by decide +kernel
  obtain ⟨hanswers, -, hholds, -⟩ := directory_refines_map hfresh hpaths hfits hapart
  have hlast := (hholds calls (List.prefix_refl calls)).1
  rw [hmap, hplace] at hlast
  exact ⟨hfresh, hpaths, hfits, hapart, hanswers.trans (by decide +kernel), hlast⟩

/-! ## Paths that are too long -/

/-- Where the path of one staging file is accepted and that of another one is too long, a write for the first
device goes well and one for the second does not. -/
theorem DirectoryStore.Fresh.answers_of_long_path {directory : Path} {files : FileSystem}
    (h : Fresh directory files) {device long : String}
    (hfits : (fileName device).utf8ByteSize ≤ 250)
    (hpath : (stagingPath directory device).text.utf8ByteSize ≤ maxPathSize)
    (hlong : maxPathSize < (stagingPath directory long).text.utf8ByteSize) (blob other : Bytes) :
    (BlobStore.onFiles directory).answers files [.write device blob, .write long other] =
      [.kept (.ok ()), .kept (.error .nameTooLong)] := by
  have hsuits : Suits directory (· = device) := by
    refine ⟨?_, ?_, ?_⟩
    · rintro _ rfl
      exact (h.checkPath_stagingPath _).trans (if_neg (Nat.not_lt.mpr hpath))
    · rintro _ rfl
      exact hfits
    · rintro _ _ rfl rfl
      exact fileName_ne_stagingName _
  obtain ⟨last, hwrite, hlast⟩ := (h.stands (· = device)).run_write hsuits rfl blob
  obtain ⟨made, hensure⟩ := hlast.run_ensure hsuits rfl
  have hrefused : (write directory long other).run.run last = (.error .nameTooLong, made) :=
    run_write_of_refused hensure ((h.checkPath_stagingPath _).trans (if_pos hlong))
  have hfirst : ((BlobStore.onFiles directory).call (.write device blob)).run files =
      (.kept (.ok ()), last) :=
    congrArg (fun result : Except FileError Unit × FileSystem =>
      (StoreAnswer.kept result.1, result.2)) hwrite
  have hsecond : ((BlobStore.onFiles directory).call (.write long other)).run last =
      (.kept (.error .nameTooLong), made) :=
    congrArg (fun result : Except FileError Unit × FileSystem =>
      (StoreAnswer.kept result.1, result.2)) hrefused
  rw [BlobStore.answers_cons, BlobStore.answers_cons, hfirst, hsecond]
  rfl

namespace Path

/-- The path `././.` and so on, with one more dot than the number says. -/
def dots : Nat → Path
  | 0 => ⟨"."⟩
  | n + 1 => ⟨(dots n).text ++ "/" ++ "."⟩

theorem size_dots (n : Nat) : (dots n).text.utf8ByteSize = 2 * n + 1 := by
  induction n with
  | zero => decide +kernel
  | succ n ih =>
    have hend : ("/" : String).utf8ByteSize = 1 ∧ (".": String).utf8ByteSize = 1 := by decide
    simp only [dots, String.utf8ByteSize_append, ih, hend]
    omega

theorem mem_dots {n : Nat} {c : Char} (h : c ∈ (dots n).text.toList) : c = '.' ∨ c = '/' := by
  induction n with
  | zero => simpa [dots] using Or.inl h
  | succ n ih =>
    simp only [dots, String.toList_append, List.mem_append] at h
    rcases h with (h | h) | h
    · exact ih h
    · exact Or.inr (by simpa using h)
    · exact Or.inl (by simpa using h)

theorem steps_dots (n : Nat) : (dots n).steps = [] := by
  induction n with
  | zero => decide +kernel
  | succ n ih =>
    have hpart : (parts ⟨"."⟩).filterMap Step.ofPart? = [] := by decide +kernel
    rw [steps, dots, parts_slash, List.filterMap_append, hpart, List.append_nil]
    exact ih

theorem size_dots_store (n : Nat) :
    2 * n + 6 ≤ ((dots n).join "store").text.utf8ByteSize ∧
      ((dots n).join "store").text.utf8ByteSize ≤ 2 * n + 7 := by
  have hstore : ("store" : String).utf8ByteSize = 5 := by decide +kernel
  have hdots := size_dots n
  have hjoin := size_join (dots n) "store"
  omega

theorem isAbsolute_dots (n : Nat) : (dots n).isAbsolute = false := by
  induction n with
  | zero => decide +kernel
  | succ n ih =>
    have hne : (dots n).text.toList ≠ [] := by
      cases n <;> simp [dots]
    simp only [isAbsolute, dots, String.toList_append, List.append_assoc,
      List.head?_append_of_ne_nil _ hne]
    exact ih

end Path

/-- A directory that can be made below a path of dots. -/
theorem fresh_dots {n : Nat} (h : 2 * n + 7 ≤ maxPathSize) :
    DirectoryStore.Fresh ((Path.dots n).join "store") FileSystem.emptyWorkspace.1 := by
  have hplain : Path.Plain "store" :=
    ⟨by decide +kernel, by decide +kernel, by decide +kernel, by decide +kernel⟩
  have hsize := Path.size_dots_store n
  refine DirectoryStore.fresh_join sound_emptyWorkspace rooted_emptyWorkspace
    (leadsTo_emptyWorkspace (Path.isAbsolute_dots n) (Path.steps_dots n)) hplain (by decide +kernel)
    (checkPath_eq_ok_iff.mpr ⟨?_, ?_, Nat.le_trans hsize.2 h⟩) (by decide +kernel)
  · intro hmem
    rcases Path.mem_join hmem with hmem | hmem | hmem
    · exact absurd (Path.mem_dots hmem) (by decide)
    · exact absurd hmem (by decide)
    · exact absurd hmem (by decide)
  · intro hempty
    rw [hempty] at hsize
    exact absurd hsize.1 (Nat.not_succ_le_zero _)

/-- Without a bound on paths the store is no map: the directory can be made, and a write goes well under a
name of 6 bytes, but not under one of 250 bytes. -/
theorem long_path_refused :
    let long := String.ofList (List.replicate 250 'k')
    let calls : List StoreCall := [.write "camera" [1], .write long [2]]
    DirectoryStore.Fresh ((Path.dots 1944).join "store") FileSystem.emptyWorkspace.1 ∧
    (∀ call ∈ calls, (DirectoryStore.fileName call.device).utf8ByteSize ≤ 250) ∧
    (∀ call ∈ calls, ∀ other ∈ calls,
      DirectoryStore.fileName call.device ≠ DirectoryStore.stagingName other.device) ∧
    (BlobStore.onFiles ((Path.dots 1944).join "store")).answers FileSystem.emptyWorkspace.1 calls =
      [.kept (.ok ()), .kept (.error .nameTooLong)] ∧
    BlobStore.byName.answers [] calls = [.kept (.ok ()), .kept (.ok ())] := by
  intro long calls
  have hsize := Path.size_dots_store 1944
  have hfresh := fresh_dots (show 2 * 1944 + 7 ≤ maxPathSize by decide)
  -- Of the path of the directory only its length matters from here on.
  generalize (Path.dots 1944).join "store" = directory at hsize hfresh ⊢
  have hcamera : (DirectoryStore.fileName "camera").utf8ByteSize = 6 := by decide +kernel
  have hlong : (DirectoryStore.fileName long).utf8ByteSize = 250 := by
    have hkept : DirectoryStore.fileName long = long := by
      apply DirectoryStore.fileName_eq_self
      · intro c hc
        rw [String.toList_ofList] at hc
        rw [List.eq_of_mem_replicate hc]
        decide
      · decide +kernel
    rw [hkept]
    decide +kernel
  refine ⟨hfresh, ?_, ?_, hfresh.answers_of_long_path (by decide +kernel) ?_ ?_ [1] [2], rfl⟩
  · simp only [calls, List.forall_mem_cons, StoreCall.device, hcamera, hlong]
    decide
  · -- The four names differ in length.
    intro call hcall other hother heq
    have hsizes := congrArg String.utf8ByteSize heq
    rw [DirectoryStore.size_stagingName] at hsizes
    simp only [calls, List.mem_cons, List.not_mem_nil, or_false] at hcall hother
    rcases hcall with rfl | rfl <;> rcases hother with rfl | rfl <;>
      simp only [StoreCall.device, hcamera, hlong] at hsizes <;> omega
  · have hjoin := Path.size_join directory (DirectoryStore.stagingName "camera")
    rw [DirectoryStore.size_stagingName] at hjoin
    rw [DirectoryStore.stagingPath, maxPathSize]
    omega
  · have hjoin := Path.size_join directory (DirectoryStore.stagingName long)
    rw [DirectoryStore.size_stagingName] at hjoin
    rw [DirectoryStore.stagingPath, maxPathSize]
    omega

end CamStream

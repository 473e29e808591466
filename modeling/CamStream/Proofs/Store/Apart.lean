import CamStream.Proofs.Files.Apart
import CamStream.Session
import CamStream.Settings.Store

/-!
# A store leaves other files alone

Whatever comes of a write, a store touches no more than the two files of the device: the staging file
and the file of the blob. Directories that it makes are new. So a session with a store behind it does
to all other files what one without a store does, which is nothing.

* `DirectoryStore.spares_write`: what a write leaves alone.
* `Persistence.places`: where the files of the store that the settings ask for lie.
* `Session.run_onFrame`: what a session does with a frame.
-/

namespace CamStream

open FileSystem

/-! ## One write -/

namespace DirectoryStore

variable {working : Location} {places : List Location} {directory : Path}

/-- The places of the two files of a device. -/
def placesOf (working : Location) (directory : Path) (device : String) : List Location :=
  [target working (stagingPath directory device), target working (blobPath directory device)]

section Ensure

variable {R : FileSystem → FileSystem → Prop} (hrefl : ∀ files, R files files)
  (htrans : ∀ files after last, R files after → R after last → R files last)

include hrefl

theorem keeps_isDirectory (path : Path) :
    (Script.request (.isDirectory path) : Script.Fallible Bool).run.Keeps R := by
  intro files
  rw [Script.run_fallible_request]
  exact hrefl files

include htrans

theorem keeps_unlessDirectory (path : Path) (error : FileError) :
    (unlessDirectory path error).run.Keeps R := by
  apply Script.Keeps.fallible_bind hrefl htrans (keeps_isDirectory hrefl path)
  intro there
  cases there <;> exact Script.keeps_pure hrefl _

theorem keeps_makeDirectories {paths : List Path}
    (hmake : ∀ path ∈ paths, (Script.makeDirectory path).run.Keeps R) :
    (makeDirectories paths).run.Keeps R := by
  induction paths with
  | nil => exact Script.keeps_pure hrefl _
  | cons path ancestors ih =>
    have hpath := hmake path List.mem_cons_self
    apply Script.Keeps.tryCatch hrefl htrans hpath
    intro error
    split
    · apply Script.Keeps.fallible_bind hrefl htrans
      · exact ih fun other hother => hmake other (List.mem_cons_of_mem _ hother)
      · intro _
        apply Script.Keeps.tryCatch hrefl htrans hpath
        intro again
        exact keeps_unlessDirectory hrefl htrans path again
    · exact keeps_unlessDirectory hrefl htrans path error

/-- Making sure of the directory does no more than making it and its ancestors. -/
theorem keeps_ensure {directory : Path}
    (hmake : ∀ path ∈ directory :: directory.ancestors, (Script.makeDirectory path).run.Keeps R) :
    (ensure directory).run.Keeps R := by
  apply Script.Keeps.fallible_bind hrefl htrans (keeps_isDirectory hrefl directory)
  intro there
  split
  · exact Script.keeps_pure hrefl _
  · split
    · exact Script.keeps_pure hrefl _
    · exact keeps_makeDirectories hrefl htrans hmake

end Ensure

theorem spares_ensure (directory : Path) : (ensure directory).run.Spares places working := by
  apply keeps_ensure Script.sparesFrom_refl Script.sparesFrom_trans
  intro path _
  apply Script.keeps_makeDirectory Script.sparesFrom_refl
  intro files after hmade hsound _
  exact (hmade.spares hsound).mono (List.nil_subset _)

/-- Whatever comes of a write, all but the two files of the device is left alone. -/
theorem spares_write (directory : Path) (device : String) (blob : Bytes) :
    (write directory device blob).run.Spares (placesOf working directory device) working := by
  apply Script.Spares.fallible_bind (spares_ensure directory)
  intro _ files hsound hworking
  rw [Script.run_fallible_bind, Script.run_create]
  cases hcreate : files.create (stagingPath directory device) with
  | error error => exact .refl hsound
  | ok result =>
    obtain ⟨handle, created⟩ := result
    have hcreated := created_of_create hcreate
    rw [hworking] at hcreated
    have hmade := hcreated.spares hsound
    have hwritten := hmade.trans (FileSystem.spares_write hmade.sound hcreated.node?_self blob)
    have hstaged := hwritten.mono (List.cons_subset_cons _ (List.nil_subset
      [target working (blobPath directory device)]))
    dsimp only
    rw [Script.run_fallible_bind, Script.run_write]
    dsimp only
    rw [Script.run_fallible_bind, Script.run_sync]
    dsimp only
    rw [Script.run_rename]
    cases hrename : (created.write handle blob).2.rename (stagingPath directory device)
        (blobPath directory device) with
    | error error => exact hstaged
    | ok last =>
      have hmoved := spares_rename hwritten.sound hrename
      rw [hwritten.workingDirectory, hworking] at hmoved
      exact hstaged.trans hmoved

end DirectoryStore

/-! ## The store of the settings -/

namespace Persistence

/-- Where the files of the store lie that the settings ask for. -/
def places (persistence : Persistence) (working : Location) (home : Option String)
    (device : String) : List Location :=
  if persistence.enabled then
    DirectoryStore.placesOf working (persistence.directoryOr home) device
  else []

variable {persistence : Persistence} {home : Option String} {device : String}
  {working : Location}

/-- The store that the settings ask for is the one in the directory, and writes to it may be left to a
worker. -/
theorem openStore_eq_some {store : BlobStore Keeping} (h : persistence.openStore home = some store) :
    persistence.enabled = true ∧
      (store = (BlobStore.directory (persistence.directoryOr home)).background ∨
        store = (BlobStore.directory (persistence.directoryOr home)).lift StateT.lift) := by
  unfold openStore at h
  cases henabled : persistence.enabled with
  | false =>
    rw [henabled] at h
    cases h
  | true =>
    rw [henabled] at h
    cases hbackground : persistence.background with
    | true =>
      rw [hbackground] at h
      exact ⟨rfl, Or.inl (Option.some.inj h).symm⟩
    | false =>
      rw [hbackground] at h
      exact ⟨rfl, Or.inr (Option.some.inj h).symm⟩

theorem places_of_enabled (henabled : persistence.enabled = true) :
    persistence.places working home device =
      DirectoryStore.placesOf working (persistence.directoryOr home) device := if_pos henabled

/-- A write that was left to the worker is performed at the places of the store. -/
theorem spares_perform (henabled : persistence.enabled = true) (blob : Bytes) :
    ((BlobStore.directory (persistence.directoryOr home)).perform { device, blob }).Spares
      (persistence.places working home device) working := by
  rw [places_of_enabled henabled]
  exact Script.Spares.bind (DirectoryStore.spares_write _ device blob) fun _ => Script.spares_pure _

end Persistence

/-- What a session with a store behind it leaves of the files and of the writes that wait. -/
structure KeptApart (persistence : Persistence) (home : Option String) (device : String)
    (files after : FileSystem) (jobs left : List WriteJob) : Prop where
  spares : files.Spares (persistence.places files.workingDirectory home device) after
  own : ∀ job ∈ left, job ∈ jobs ∨ persistence.enabled = true ∧ job.device = device
  atMostOne : left.length ≤ jobs.length + 1

/-- Keeping a pair counts writes, and nothing else. -/
structure Tally.SameButWrites (tally other : Tally) : Prop where
  framesReceived : other.framesReceived = tally.framesReceived
  unitsEmitted : other.unitsEmitted = tally.unitsEmitted
  overflowDrops : other.overflowDrops = tally.overflowDrops

theorem Tally.sameButWrites_afterWrite {ε : Type} (tally : Tally) (answer : Except ε Unit) :
    tally.SameButWrites (tally.afterWrite answer) := by
  cases answer <;> exact ⟨rfl, rfl, rfl⟩

section Keeping

variable (persistence : Persistence) (home : Option String) (device : String)

omit persistence home device in
theorem run_lift {α β : Type} (script : Script α) (f : α → β) (jobs : List WriteJob)
    (files : FileSystem) :
    ((do return f (← StateT.lift script) : Keeping β).run jobs).run files =
      ((f (script.run files).1, jobs), (script.run files).2) := by
  have hlift : ((StateT.lift script : Keeping α).run jobs).run files =
      (((script.run files).1, jobs), (script.run files).2) := by
    rw [StateT.run_lift, Script.run_bind, Script.run_pure]
  rw [StateT.run_bind, Script.run_bind, hlift]
  rfl

/-- One write of the store that the settings ask for: it is performed, or left to the worker. -/
theorem run_save {keeper : Keeper Keeping}
    (hkeeper : persistence.openKeeper home device = some keeper) (sets : ParameterSets)
    {files : FileSystem} (hsound : files.Sound) (jobs : List WriteJob) (tally : Tally) :
    ∃ kept left after, ((keeper.save sets tally).run jobs).run files = ((kept, left), after) ∧
      tally.SameButWrites kept ∧ KeptApart persistence home device files after jobs left := by
  obtain ⟨store, hstore, rfl⟩ := Option.map_eq_some_iff.mp hkeeper
  obtain ⟨henabled, rfl | rfl⟩ := Persistence.openStore_eq_some hstore
  · refine ⟨_, jobs ++ [{ device, blob := sets.toBlob }], files, rfl,
      tally.sameButWrites_afterWrite _, .refl hsound, ?_, Nat.le_of_eq List.length_append⟩
    intro job hjob
    rcases List.mem_append.mp hjob with hbefore | hnew
    · exact Or.inl hbefore
    · rw [List.mem_singleton.mp hnew]
      exact Or.inr ⟨henabled, rfl⟩
  · have hwrite := DirectoryStore.spares_write (persistence.directoryOr home) device sets.toBlob
      files hsound rfl
    rw [← Persistence.places_of_enabled henabled] at hwrite
    exact ⟨_, jobs, _, run_lift _ tally.afterWrite jobs files, tally.sameButWrites_afterWrite _,
      hwrite, fun _ hjob => Or.inl hjob, Nat.le_succ _⟩

theorem run_keepChange (fates : List Fate) (sets : ParameterSets) {files : FileSystem}
    (hsound : files.Sound) (jobs : List WriteJob) (tally : Tally) :
    ∃ kept left after,
      ((keepChange (persistence.openKeeper home device) fates sets tally).run jobs).run files =
        ((kept, left), after) ∧
      tally.SameButWrites kept ∧ KeptApart persistence home device files after jobs left := by
  have hnothing : tally.SameButWrites tally ∧ KeptApart persistence home device files files jobs jobs :=
    ⟨⟨rfl, rfl, rfl⟩, .refl hsound, fun _ hjob => Or.inl hjob, Nat.le_succ _⟩
  cases hkeeper : persistence.openKeeper home device with
  | none => exact ⟨tally, jobs, files, rfl, hnothing⟩
  | some keeper =>
    rw [keepChange]
    split
    · exact run_save persistence home device hkeeper sets hsound jobs tally
    · exact ⟨tally, jobs, files, rfl, hnothing⟩

/-- What a session does with a frame: the units and the session are those of `take`, and the store
leaves all files but its own alone. -/
theorem Session.run_onFrame (session : Session) (frame : CaptureFrame) {files : FileSystem}
    (hsound : files.Sound) (jobs : List WriteJob) (tally : Tally) :
    ∃ kept left after,
      ((session.onFrame (persistence.openKeeper home device) tally frame).run jobs).run files =
        ((((session.take frame).1.units, (session.take frame).2, kept), left), after) ∧
      (tally.afterFrame (session.take frame).1).SameButWrites kept ∧
      KeptApart persistence home device files after jobs left := by
  obtain ⟨kept, left, after, hrun, hkept⟩ := run_keepChange persistence home device
    (session.take frame).1.fates (session.take frame).2.framer.sets hsound jobs
    (tally.afterFrame (session.take frame).1)
  refine ⟨kept, left, after, ?_, hkept⟩
  rw [onFrame, StateT.run_bind, Script.run_bind, hrun]
  rfl

end Keeping

end CamStream

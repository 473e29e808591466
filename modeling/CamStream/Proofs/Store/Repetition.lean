import CamStream.Proofs.Store.Interruption

/-!
# Writes after one that was cut short

What a write that was cut short leaves behind does not stand in the way of the next one. The directories
that it has made are some of those that the next one needs, so fewer are left to be made; and a staging
file is made anew or emptied, whatever it holds.

* `DirectoryStore.Ahead.run_makeDirectories`: making directories ends well where it would have ended well
  with fewer of them there.
* `DirectoryStore.Unhindered`: a blob can be written. It is so after a write that was cut short if it was
  so before.
* `interrupted_write_harmless`: what a write leaves that meets with anything, and what the next one does.
* `new_directory_noticed`: a new directory may be noticed by a reader.
-/

namespace CamStream

open FileSystem

namespace DirectoryStore

variable {directory path : Path} {paths ancestors : List Path} {device : String} {blob : Bytes}
  {parent place : Location} {files made after part whole first second last : FileSystem}

/-! ## Making directories of which some are there -/

/-- Make a directory, unless it is there after all. -/
abbrev makeOrFind (path : Path) : Script.Fallible Unit :=
  tryCatch (Script.makeDirectory path) (unlessDirectory path)

theorem run_makeOrFind (path : Path) (files : FileSystem) :
    (makeOrFind path).run.run files =
      match files.makeDirectory path privateMode with
      | .ok made => (.ok (), made)
      | .error error => (if files.isDirectory path then .ok () else .error error, files) := by
  rw [Script.run_tryCatch, Script.run_makeDirectory]
  cases files.makeDirectory path privateMode with
  | ok made => rfl
  | error error => exact run_unlessDirectory path error files

/-- The ancestors are made only if the directory cannot be made for want of them. -/
theorem run_makeDirectories_cons (path : Path) (ancestors : List Path) (files : FileSystem) :
    (makeDirectories (path :: ancestors)).run.run files =
      if files.makeDirectory path privateMode = .error .notFound then
        (do makeDirectories ancestors; makeOrFind path).run.run files
      else (makeOrFind path).run.run files := by
  rw [run_makeOrFind, makeDirectories, Script.run_tryCatch, Script.run_makeDirectory]
  cases files.makeDirectory path privateMode with
  | ok made => rfl
  | error error =>
    by_cases hmissing : error = .notFound
    · simp only [hmissing, if_true]
    · simp [hmissing, run_unlessDirectory]

/-- Only a path that names something can be made or found. -/
theorem checkPath_of_run_makeOrFind (h : (makeOrFind path).run.run files = (.ok (), last)) :
    checkPath path = .ok () := by
  rw [run_makeOrFind] at h
  cases hpath : checkPath path with
  | ok _ => rfl
  | error error =>
    have hmake : files.makeDirectory path privateMode = .error error := by
      rw [makeDirectory, locateEntry, hpath]
      rfl
    have hthere : files.isDirectory path = false := by
      rw [isDirectory, locate, hpath]
      rfl
    rw [hmake, hthere] at h
    cases h

theorem checkPath_of_run_makeDirectories
    (h : (makeDirectories (path :: ancestors)).run.run files = (.ok (), last)) :
    checkPath path = .ok () := by
  rw [run_makeDirectories_cons] at h
  split at h
  · obtain ⟨_, _, -, hlast⟩ := Script.run_fallible_bind_eq_ok_iff.mp h
    exact checkPath_of_run_makeOrFind hlast
  · exact checkPath_of_run_makeOrFind h

theorem grown_of_run_makeDirectories (hway : ∀ path ∈ paths, path.OnTheWay directory)
    (h : (makeDirectories paths).run.run files = (.ok (), made)) : Grown directory paths files made := by
  have hkeeps := keeps_makeDirectories (R := Grown directory paths) .refl (fun _ _ _ => .trans)
    (fun path hpath => keeps_makeDirectory_grown hpath (hway path hpath)) files
  rwa [h] at hkeeps

/-- Where the directory above is there, it is made or found. -/
theorem run_makeOrFind_of_entry (hpart : part.PartOf whole) (hleads : whole.LeadsTo path place)
    (hentry : part.locateEntry path = .ok (parent, path.lastName?)) (hpath : path ∈ paths)
    (hway : path.OnTheWay directory) :
    ∃ last, (makeOrFind path).run.run part = (.ok (), last) ∧
      (∀ ancestors, (makeDirectories (path :: ancestors)).run.run part = (.ok (), last)) ∧
      Grown directory paths part last ∧ last.LeadsTo path place := by
  have hvalid := (locateEntry_eq_ok_iff.mp hentry).1
  rcases hpart.makeDirectory hleads hentry with ⟨hmake, hthere⟩ | ⟨last, hmake, hlast⟩
  · have hrun : (makeOrFind path).run.run part = (.ok (), part) := by
      rw [run_makeOrFind, hmake, hthere.isDirectory_path hvalid]
      rfl
    refine ⟨part, hrun, fun ancestors => ?_, .refl part, hthere⟩
    rw [run_makeDirectories_cons, hmake, if_neg (by simp), hrun]
  · have hrun : (makeOrFind path).run.run part = (.ok (), last) := by
      rw [run_makeOrFind, hmake]
    refine ⟨last, hrun, fun ancestors => ?_,
      grown_of_makeDirectory hpath hway.isAbsolute hmake, hlast⟩
    rw [run_makeDirectories_cons, hmake, if_neg (by simp), hrun]

theorem makeDirectory_of_no_entry (hentry : part.locateEntry path = .error .notFound) :
    part.makeDirectory path privateMode = .error .notFound := by
  rw [makeDirectory, hentry]
  rfl

/-- Two trees with one completion, of which the second one has come further on the way to a directory. -/
structure Ahead (whole : FileSystem) (directory : Path) (first second : FileSystem) : Prop where
  part : first.PartOf whole
  partAhead : second.PartOf whole
  more {location : Location} (h : first.isDirectoryAt location = true) :
    second.isDirectoryAt location = true
  start : first.isDirectoryAt (first.origin directory) = true

namespace Ahead

variable (h : Ahead whole directory first second)

include h

theorem workingDirectory : second.workingDirectory = first.workingDirectory :=
  h.partAhead.workingDirectory.symm.trans h.part.workingDirectory

theorem start_second : second.isDirectoryAt (second.origin directory) = true := by
  rw [origin, h.workingDirectory]
  exact h.more h.start

theorem locateEntry (hleads : whole.LeadsTo path place) (hpath : checkPath path = .ok ())
    (hway : path.OnTheWay directory) :
    (∃ parent, second.locateEntry path = .ok (parent, path.lastName?)) ∨
      second.locateEntry path = .error .notFound := by
  have hstart := h.start_second
  rw [← hway.origin] at hstart
  exact h.partAhead.locateEntry hleads hpath hstart

/-- What is missing in the second tree is missing in the first one. -/
theorem no_entry (hleads : whole.LeadsTo path place) (hpath : checkPath path = .ok ())
    (hway : path.OnTheWay directory) (hentry : second.locateEntry path = .error .notFound) :
    first.locateEntry path = .error .notFound := by
  have hstart := h.start
  rw [← hway.origin] at hstart
  rcases h.part.locateEntry hleads hpath hstart with ⟨parent, hthere⟩ | hmissing
  · rw [locateEntry_of_more h.workingDirectory (fun _ => h.more) hthere] at hentry
    cases hentry
  · exact hmissing

/-- What can be made or found in the first tree has its directory in the second one. -/
theorem exists_entry (hleads : whole.LeadsTo path place) (hway : path.OnTheWay directory)
    (hrun : (makeOrFind path).run.run first = (.ok (), after)) :
    ∃ parent, second.locateEntry path = .ok (parent, path.lastName?) := by
  have hpath := checkPath_of_run_makeOrFind hrun
  rcases h.locateEntry hleads hpath hway with hentry | hmissing
  · exact hentry
  · exfalso
    have hmissingFirst := h.no_entry hleads hpath hway hmissing
    rw [run_makeOrFind, makeDirectory_of_no_entry hmissingFirst] at hrun
    cases hthere : first.isDirectory path with
    | false =>
      rw [hthere] at hrun
      cases hrun
    | true =>
      obtain ⟨-, _, hfound⟩ := leadsTo_of_isDirectory hthere
      obtain ⟨_, hentry⟩ := hfound.exists_locateEntry hpath
      rw [hmissingFirst] at hentry
      cases hentry

/-- Directories are added to both, and in the end the second tree has the last of them. -/
theorem grown (hleads : whole.LeadsTo directory place) (hway : ∀ path ∈ paths, path.OnTheWay directory)
    (hfirst : Grown directory paths first after) (hsecond : Grown directory paths second last)
    {goal : Location} (hlast : last.LeadsTo path goal) (hpaths : ∀ above ∈ paths, above.OnTheWay path) :
    Ahead whole directory after last where
  part := h.part.grown hfirst fun above habove => by
    rw [← h.part.workingDirectory]
    exact (hleads.onTheWay (hway above habove)).isDirectory
  partAhead := h.partAhead.grown hsecond fun above habove => by
    rw [← h.partAhead.workingDirectory]
    exact (hleads.onTheWay (hway above habove)).isDirectory
  more hthere := by
    rcases hfirst.of_isDirectoryAt hthere with hthere | ⟨above, habove, rfl⟩
    · exact hsecond.isDirectoryAt (h.more hthere)
    · rw [← h.workingDirectory, ← hsecond.workingDirectory]
      exact (hlast.onTheWay (hpaths above habove)).isDirectory
  start := by
    rw [hfirst.origin_eq]
    exact hfirst.isDirectoryAt h.start

/-- **Making directories ends well** where it would have ended well with fewer of them there. -/
theorem run_makeDirectories (hleads : whole.LeadsTo directory place)
    (hway : ∀ path ∈ paths, path.OnTheWay directory)
    (hchain : paths.Pairwise fun path above => above.OnTheWay path)
    (hrun : (makeDirectories paths).run.run first = (.ok (), after)) :
    ∃ last, (makeDirectories paths).run.run second = (.ok (), last) ∧
      Grown directory paths second last ∧ Ahead whole directory after last := by
  -- Nothing is made in either tree until an ancestor is reached that can be made, so the trees are the same
  -- ones all the way up; what is made on the way down keeps the second one ahead.
  induction paths generalizing after with
  | nil =>
    cases hrun
    exact ⟨second, rfl, .refl second, h⟩
  | cons path ancestors ih =>
    obtain ⟨habove, hchain⟩ := List.pairwise_cons.mp hchain
    have hmem := List.mem_cons_self (a := path) (l := ancestors)
    have hself := hway path hmem
    have hpath := checkPath_of_run_makeDirectories hrun
    have hgrown := grown_of_run_makeDirectories hway hrun
    have hleadsPath := hleads.onTheWay hself
    have hpaths : ∀ above ∈ path :: ancestors, above.OnTheWay path := by
      intro above hmem
      rcases List.mem_cons.mp hmem with rfl | hmem
      · exact ⟨rfl, List.prefix_refl _⟩
      · exact habove above hmem
    rcases h.locateEntry hleadsPath hpath hself with ⟨parent, hentry⟩ | hmissing
    · obtain ⟨last, -, hlastRun, hlastGrown, hlast⟩ :=
        run_makeOrFind_of_entry h.partAhead hleadsPath hentry hmem hself
      exact ⟨last, hlastRun ancestors, hlastGrown,
        h.grown hleads hway hgrown hlastGrown hlast hpaths⟩
    · -- The directory above is missing in both, so its ancestors are made in both.
      have hmissingFirst := h.no_entry hleadsPath hpath hself hmissing
      rw [run_makeDirectories_cons, if_pos (makeDirectory_of_no_entry hmissingFirst)] at hrun
      rw [run_makeDirectories_cons, if_pos (makeDirectory_of_no_entry hmissing)]
      obtain ⟨⟨⟩, between, hbetween, hafter⟩ := Script.run_fallible_bind_eq_ok_iff.mp hrun
      obtain ⟨made, hmade, hmadeGrown, hnext⟩ :=
        ih (fun above hmem => hway above (List.mem_cons_of_mem _ hmem)) hchain hbetween
      obtain ⟨parent, hentry⟩ := hnext.exists_entry hleadsPath hself hafter
      obtain ⟨last, hlastRun, -, hlastGrown, hlast⟩ :=
        run_makeOrFind_of_entry hnext.partAhead hleadsPath hentry hmem hself
      have hlastGrown := (hmadeGrown.mono (List.subset_cons_self _ _)).trans hlastGrown
      exact ⟨last, Script.run_fallible_bind_eq_ok_iff.mpr ⟨(), made, hmade, hlastRun⟩, hlastGrown,
        h.grown hleads hway hgrown hlastGrown hlast hpaths⟩

end Ahead

/-! ## Making sure of the directory again -/

theorem run_ensure_of_missing (htext : directory.text ≠ "")
    (hthere : files.isDirectory directory = false) :
    (ensure directory).run.run files =
      (makeDirectories (directory :: directory.ancestors)).run.run files := by
  rw [ensure, Script.run_fallible_bind, Script.run_fallible_request]
  simp only [Script.answer, hthere, Bool.false_eq_true, if_false]
  rw [if_neg htext]

/-- A blob can be written: the directory is there or can be made, and both files have their places in it. -/
def Unhindered (directory : Path) (device : String) (files : FileSystem) : Prop :=
  ∃ made, (ensure directory).run.run files = (.ok (), made) ∧ Ready directory device made

theorem unhindered_iff_healthy :
    Unhindered directory device files ↔ Healthy directory device files := by
  constructor
  · rintro ⟨made, hensure, hready⟩
    obtain ⟨last, hwrite, -⟩ := hready.run_write []
    exact ⟨[], last, (hready.run_write_of_ensure hensure device []).trans hwrite⟩
  · rintro ⟨blob, last, hwrite⟩
    exact ready_of_run_write hwrite

theorem Ready.unhindered (h : Ready directory device files) : Unhindered directory device files :=
  ⟨files, h.run_ensure, h⟩

/-- Once the directory is there, both files have their places in it. -/
theorem Unhindered.ready (h : Unhindered directory device files)
    (hthere : directory.text = "" ∨ files.isDirectory directory = true) :
    Ready directory device files := by
  obtain ⟨made, hensure, hready⟩ := h
  rw [run_ensure_of_there hthere] at hensure
  cases hensure
  exact hready

theorem Ahead.sameDirectories (h : Ahead whole directory whole second) :
    whole.SameDirectories second where
  workingDirectory := h.workingDirectory
  isDirectoryAt _ := Bool.eq_iff_iff.mpr ⟨h.partAhead.isDirectoryAt, h.more⟩

/-- Where some directories are left over, the others are made, and all is as if all had been made at once. -/
theorem run_ensure_of_prepared (hrooted : files.Rooted) (hgrown : Prepared directory files after)
    (hensure : (ensure directory).run.run files = (.ok (), made)) (hleads : made.LeadsTo directory place) :
    ∃ last, (ensure directory).run.run after = (.ok (), last) ∧ made.SameDirectories last := by
  have hway : ∀ path ∈ directory :: directory.ancestors, path.OnTheWay directory :=
    fun path => Path.onTheWay_of_mem
  have hmade := prepared_of_run_ensure hensure
  have hpart := hmade.partOf hrooted
  have hahead : Ahead made directory files after := by
    refine ⟨hpart, hpart.grown hgrown fun path hpath => ?_, hgrown.isDirectoryAt, ?_⟩
    · rw [← hpart.workingDirectory]
      exact (hleads.onTheWay (hway path hpath)).isDirectory
    · rcases walk_of_run_ensure hensure with rfl | hmissing
      · exact isDirectoryAt_of_walk hleads.walk hleads.isDirectory
      · exact isDirectoryAt_of_walk_notFound hmissing
  suffices hlast : ∃ last, (ensure directory).run.run after = (.ok (), last) ∧
      Ahead made directory made last by
    obtain ⟨last, hrun, hlast⟩ := hlast
    exact ⟨last, hrun, hlast.sameDirectories⟩
  by_cases hthere : directory.text = "" ∨ after.isDirectory directory = true
  · refine ⟨after, run_ensure_of_there hthere, ?_⟩
    rcases hthere with htext | hthere
    · rw [run_ensure_of_there (Or.inl htext)] at hensure
      cases hensure
      exact hahead
    · obtain ⟨-, _, hfound⟩ := leadsTo_of_isDirectory hthere
      exact hahead.grown hleads hway hmade (.refl after) hfound hway
  · rw [not_or, Bool.not_eq_true] at hthere
    have hthereFirst : files.isDirectory directory = false := by
      apply Bool.eq_false_iff.mpr
      intro hfound
      obtain ⟨hpath, _, hfound⟩ := leadsTo_of_isDirectory hfound
      have hfound := hfound.of_more hgrown.workingDirectory fun _ => hgrown.isDirectoryAt
      exact Bool.eq_false_iff.mp hthere.2 (hfound.isDirectory_path hpath)
    rw [run_ensure_of_missing hthere.1 hthereFirst] at hensure
    rw [run_ensure_of_missing hthere.1 hthere.2]
    obtain ⟨last, hrun, -, hlast⟩ :=
      hahead.run_makeDirectories hleads hway directory.pairwise_ancestors hensure
    exact ⟨last, hrun, hlast⟩

namespace Unhindered

variable (h : Unhindered directory device files)

include h

/-- Directories that are left over do not stand in the way. -/
theorem prepared (hrooted : files.Rooted) (hgrown : Prepared directory files after) :
    Unhindered directory device after := by
  obtain ⟨made, hensure, hready⟩ := h
  have hleads : ∃ place, made.LeadsTo directory place := by
    obtain ⟨place, hstaging, -⟩ := hready
    exact ⟨place, hstaging.leadsTo⟩
  obtain ⟨place, hleads⟩ := hleads
  obtain ⟨last, hrun, hsame⟩ := run_ensure_of_prepared hrooted hgrown hensure hleads
  exact ⟨last, hrun, hready.same hsame⟩

/-- Nor does a staging file. -/
theorem unfinished (hrooted : files.Rooted) (hafter : Unfinished directory device files after) :
    Unhindered directory device after := by
  obtain ⟨made, hmade, rfl | ⟨parent, hstaged⟩⟩ := hafter
  · exact h.prepared hrooted hmade
  · have hthere : directory.text = "" ∨ made.isDirectory directory = true := by
      by_cases htext : directory.text = ""
      · exact Or.inl htext
      · exact Or.inr (hstaged.staging.isDirectory_path htext)
    exact (((h.prepared hrooted hmade).ready hthere).same hstaged.sameDirectories).unhindered

end Unhindered

theorem Written.unhindered (h : Written directory device blob parent made last) :
    Unhindered directory device last := by
  have hready : Ready directory device made := ⟨parent, h.staging, h.place⟩
  exact (hready.same h.sameDirectories).unhindered

/-! ## The next write -/

/-- A write that is not hindered leaves nothing but its blob, whatever was there. -/
theorem Unhindered.run_write (h : Unhindered directory device files) (hsound : files.Sound)
    (blob : Bytes) :
    ∃ last, (write directory device blob).run.run files = (.ok (), last) ∧
      NowNew directory device blob files last := by
  obtain ⟨last, hwrite, -⟩ := (unhindered_iff_healthy.mp h).run_write blob
  obtain ⟨made, parent, hensure, -, hwritten⟩ := written_of_run_write hsound hwrite
  exact ⟨last, hwrite, hwritten.nowNew (prepared_of_run_ensure hensure)⟩

/-! ## Directories that are noticed -/

/-- The path of a file is refused only for its length, or for what is in the path of the directory. -/
theorem checkPath_blobPath_of_size (hnul : '\x00' ∉ directory.text.toList)
    (hsize : directory.text.utf8ByteSize + (fileName device).utf8ByteSize < maxPathSize) :
    checkPath (blobPath directory device) = .ok () := by
  have hjoin := Path.size_join directory (fileName device)
  have hname : (fileName device).utf8ByteSize ≠ 0 := by
    simpa [String.utf8ByteSize_eq_zero_iff] using (plain_fileName device).ne_empty
  refine checkPath_eq_ok_iff.mpr ⟨fun hmem => ?_, fun hempty => ?_, ?_⟩
  · rcases Path.mem_join hmem with hmem | hslash | hmem
    · exact hnul hmem
    · exact absurd hslash (by decide)
    · exact absurd (isNameChar_of_mem_fileName hmem) (by decide)
  · rw [← blobPath, hempty, String.utf8ByteSize_empty] at hjoin
    omega
  · rw [blobPath]
    omega

/-- A name too long for a file is found to be too long where the directory is there. -/
theorem read_of_long_name (hlong : maxNameSize < (fileName device).utf8ByteSize)
    (hpath : checkPath (blobPath directory device) = .ok ()) :
    (files.walk (files.origin directory) directory.steps = .error .notFound →
      (BlobStore.onFiles directory).given device files = (.ok none, none)) ∧
    (∀ parent, files.LeadsTo directory parent →
      (BlobStore.onFiles directory).given device files = (.error .nameTooLong, none)) := by
  constructor
  · intro hwalk
    rw [BlobStore.given_onFiles, run_read, blobPath, read_join_of_notFound (plain_fileName device) hwalk,
      ← blobPath, hpath]
    rfl
  · intro parent hleads
    have hentry : ∀ node?, entryBytes (fileName device) node? = .error .nameTooLong :=
      fun node? => if_pos hlong
    rw [BlobStore.given_onFiles, run_read_of_entry hleads, hpath, hentry]
    rfl

theorem fileName_replicate (n : Nat) :
    fileName (String.ofList (List.replicate (n + 1) 'x')) = String.ofList (List.replicate (n + 1) 'x') ∧
      (String.ofList (List.replicate (n + 1) 'x')).utf8ByteSize = n + 1 := by
  constructor
  · apply fileName_eq_self
    · intro c hc
      rw [String.toList_ofList] at hc
      rw [List.eq_of_mem_replicate hc]
      decide
    · have hhead : ∀ name : String, name.toList.head? ≠ some 'x' →
          String.ofList (List.replicate (n + 1) 'x') ≠ name := by
        rintro name hname rfl
        rw [String.toList_ofList] at hname
        exact hname rfl
      exact ⟨hhead "" (by decide), hhead "." (by decide), hhead ".." (by decide)⟩
  · induction n with
    | zero => decide
    | succ n ih =>
      rw [List.replicate_succ, String.ofList_cons, String.utf8ByteSize_append, ih]
      have hone : (String.singleton 'x').utf8ByteSize = 1 := by decide
      omega

end DirectoryStore

open DirectoryStore (StillOld NowNew Unhindered stagingPath blobPath)

/-- **A write that is cut short is harmless.** Let a blob be written for a device into any directory of a
tree of files, let any of the requests fail, the bytes go out in any pieces, and the process stop at any
time.

* At most one file has been moved, the staging file in the place of the old one. It has been moved exactly
  if the write has come to its end without an error.
* Until then what was kept for the device is still kept, and from then on the blob is.
* If a write was not hindered before, it is not hindered afterwards: it succeeds and leaves only its blob.
  So it does in any other tree of files where it is not hindered. -/
theorem interrupted_write_harmless (directory : Path) (device : String) (blob : Bytes)
    {files : FileSystem} (hsound : files.Sound) (hrooted : files.Rooted) (incidents : List Incident) :
    let store := BlobStore.onFiles directory
    let course := ((BlobStore.directory directory).write device blob).course files incidents
    let replaced := [(stagingPath directory device, blobPath directory device)]
    (course.moves = [] ∨ course.moves = replaced) ∧
    (course.value? = some (.ok ()) ↔ course.moves = replaced) ∧
    (course.moves = [] → StillOld directory device files course.files) ∧
    (course.moves = replaced → NowNew directory device blob files course.files) ∧
    (Unhindered directory device files → ∀ again, ∃ last,
      (store.write device again).run course.files = (.ok (), last) ∧
        NowNew directory device again files last) ∧
    (∀ later : FileSystem, later.Sound → Unhindered directory device later → ∀ again, ∃ last,
      (store.write device again).run later = (.ok (), last) ∧
        NowNew directory device again later last) := by
  intro store course replaced
  have hcourse := DirectoryStore.course_write hsound directory device blob incidents
  have hother : ([] : List (Path × Path)) ≠ replaced := by simp [replaced]
  refine ⟨?_, ?_, ?_, ?_, ?_, ?_⟩
  · exact hcourse.imp And.left And.left
  · rcases hcourse with ⟨hmoves, hvalue, -⟩ | ⟨hmoves, hvalue, -⟩
    · exact iff_of_false hvalue fun hmoved => hother (hmoves.symm.trans hmoved)
    · exact iff_of_true hvalue hmoves
  · intro hmoves
    rcases hcourse with ⟨-, -, hafter⟩ | ⟨hmoved, -⟩
    · exact hafter.stillOld hrooted
    · exact absurd (hmoves.symm.trans hmoved) hother
  · intro hmoves
    rcases hcourse with ⟨hmoved, -⟩ | ⟨-, -, made, parent, hmade, hwritten⟩
    · exact absurd (hmoved.symm.trans hmoves) hother
    · exact hwritten.nowNew hmade
  · intro h again
    have hleft := hcourse.elim (fun hafter => hafter.2.2.left hsound) fun hdone => by
      obtain ⟨-, -, made, parent, hmade, hwritten⟩ := hdone
      exact hwritten.left hmade
    have hnext : Unhindered directory device course.files := by
      rcases hcourse with ⟨-, -, hafter⟩ | ⟨-, -, made, parent, hmade, hwritten⟩
      · exact h.unfinished hrooted hafter
      · exact hwritten.unhindered
    obtain ⟨last, hwrite, hlast⟩ := hnext.run_write hleft.sound again
    exact ⟨last, hwrite, hleft.nowNew hlast⟩
  · intro later hlater h again
    exact h.run_write hlater again

/-- A write that fails after two of three bytes, the one that comes after it, and one that meets with no
failure, all into a directory beside the working directory, which is missing. -/
theorem interrupted_write_harmless_torn :
    let directory : Path := ⟨"../.spspps"⟩
    let store := BlobStore.onFiles directory
    let files := FileSystem.emptyWorkspace.1
    let torn := ((BlobStore.directory directory).write "0" [1, 2, 3]).course files
      [.carriedOut, .carriedOut, .carriedOut, .partly 2, .failure .other]
    let whole := ((BlobStore.directory directory).write "0" [1, 2, 3]).course files
      (List.replicate 6 .carriedOut)
    files.Sound ∧ files.Rooted ∧
      (torn.value? = some (.error .other) ∧
        torn.files.node? [".spspps", ".0.tmp"] = some (.file 0 [1, 2]) ∧
        store.given "0" torn.files = store.given "0" files) ∧
      (whole.value? = some (.ok ()) ∧ store.given "0" whole.files = (.ok (some [1, 2, 3]), none)) ∧
      Unhindered directory "0" files ∧
      ∃ last, (store.write "0" [4]).run torn.files = (.ok (), last) ∧
        NowNew directory "0" [4] files last := by
  intro directory store files torn whole
  have hsound := FileSystem.sound_emptyWorkspace
  have hrooted := FileSystem.rooted_emptyWorkspace
  have htorn : torn.value? = some (.error .other) ∧ torn.moves = [] ∧
      torn.files.node? [".spspps", ".0.tmp"] = some (.file 0 [1, 2]) := by decide +kernel
  have hwhole : whole.value? = some (.ok ()) := by decide +kernel
  have hanswer : ((store.write "0" []).run files).1 = .ok () := by decide +kernel
  have hunhindered : Unhindered directory "0" files :=
    DirectoryStore.unhindered_iff_healthy.mpr ⟨[], _, Prod.ext hanswer rfl⟩
  have hup : files.NoUpBehind (files.origin directory) directory.steps :=
    ⟨[.up], [.into ".spspps"], [], by decide +kernel, by decide +kernel, by decide⟩
  have hsteps : (blobPath directory "0").steps = [.up, .into ".spspps", .into "0"] := by
    decide +kernel
  have hfits : ∀ name, .into name ∈ (blobPath directory "0").steps → name.utf8ByteSize ≤ 255 := by
    intro name hname
    simp only [hsteps, List.mem_cons, reduceCtorEq, false_or, Path.Step.into.injEq, List.not_mem_nil,
      or_false] at hname
    rcases hname with rfl | rfl <;> decide
  obtain ⟨-, -, hold, -, hagain, -⟩ :=
    interrupted_write_harmless directory "0" [1, 2, 3] hsound hrooted
      [.carriedOut, .carriedOut, .carriedOut, .partly 2, .failure .other]
  obtain ⟨-, hdone, -, hnew, -⟩ :=
    interrupted_write_harmless directory "0" [1, 2, 3] hsound hrooted (List.replicate 6 .carriedOut)
  exact ⟨hsound, hrooted, ⟨htorn.1, htorn.2.2, (hold htorn.2.1).missing hup hfits⟩,
    ⟨hwhole, (hnew (hdone.mp hwhole)).given.trans (by decide +kernel)⟩, hunhindered,
    hagain hunhindered [4]⟩

/-- A directory is new after a write that was stopped or that failed, and a read before the staging file is
moved tells so: a name too long for a file is now found to be too long, and behind `..` there is
now the blob that was missed before. -/
theorem new_directory_noticed :
    (let long := String.ofList (List.replicate 256 'x')
    let directory : Path := ⟨"/work/.spspps"⟩
    let store := BlobStore.onFiles directory
    let files := FileSystem.emptyWorkspace.1
    let course := ((BlobStore.directory directory).write long [1]).course files
      (List.replicate 2 .carriedOut)
    course.moves = [] ∧
      store.given long files = (.ok none, none) ∧
      store.given long course.files = (.error .nameTooLong, none)) ∧
    (let directory : Path := ⟨"a/../b"⟩
    let store := BlobStore.onFiles directory
    let files := (FileSystem.emptyWorkspace.1.addFile ["b", "0"] [1]).put ["work", "b", ".0.tmp"]
      (.directory FileSystem.openMode)
    let course := ((BlobStore.directory directory).write "0" [2]).course files
      (List.replicate 12 .carriedOut)
    course.value? = some (.error .isADirectory) ∧ course.moves = [] ∧
      store.given "0" files = (.ok none, none) ∧
      store.given "0" course.files = (.ok (some [1]), none)) := by
  constructor
  · intro long directory store files course
    obtain ⟨hname, hsize⟩ := DirectoryStore.fileName_replicate 255
    have hlong : maxNameSize < (DirectoryStore.fileName long).utf8ByteSize := by
      rw [hname, hsize]
      decide
    have hpath : checkPath (DirectoryStore.blobPath directory long) = .ok () := by
      apply DirectoryStore.checkPath_blobPath_of_size
      · decide +kernel
      · rw [hname, hsize]
        decide +kernel
    have hmoves : course.moves = [] := by decide +kernel
    have hwalk : files.walk (files.origin directory) directory.steps = .error .notFound := by
      decide +kernel
    have hleads : course.files.LeadsTo directory ["work", ".spspps"] := by
      constructor <;> decide +kernel
    refine ⟨hmoves, ?_, ?_⟩
    · exact (DirectoryStore.read_of_long_name hlong hpath).1 hwalk
    · exact (DirectoryStore.read_of_long_name hlong hpath).2 _ hleads
  · decide +kernel
end CamStream

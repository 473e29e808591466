import CamStream.Files.Script
import CamStream.Proofs.Outcome

/-!
# Files inside a directory

A path of a name inside a directory leads to the place of that name, and what can be done there is
decided by the directories alone: none of making, writing, and moving files changes where the
directories are.

* `Path.steps_join`, `Path.lastName?_join`: the steps along such a path, and its last name.
* `FileSystem.SameDirectories.walk`: a walk to a directory is not led astray by other files.
* `FileSystem.Place`: a name in a directory that a file can have. It remains one as long as the
  directories stay where they are (`Place.same`).
* `FileSystem.Place.create`, `FileSystem.Place.rename`: a file can be made at a place, or moved to it;
  and to nothing else (`place_of_create`, `place_of_rename`).
-/

namespace CamStream

/-! ## Paths of names inside a directory -/

namespace Path

/-- A name that stands for itself in a path. -/
structure Plain (name : String) : Prop where
  noSlash : '/' ∉ name.toList
  ne_empty : name ≠ ""
  ne_here : name ≠ "."
  ne_up : name ≠ ".."

variable {directory : Path} {name : String}

theorem Step.ofPart?_of_plain (h : Plain name) : Step.ofPart? name = some (.into name) := by
  simp [Step.ofPart?, h.ne_empty, h.ne_here, h.ne_up]

theorem parts_of_noSlash (h : '/' ∉ name.toList) : parts ⟨name⟩ = [name] := by
  simp [parts, partsOf_of_noSlash h]

theorem parts_slash (before after : String) :
    parts ⟨before ++ "/" ++ after⟩ = parts ⟨before⟩ ++ parts ⟨after⟩ := by
  have hchars : (before ++ "/" ++ after).toList = before.toList ++ '/' :: after.toList := by simp
  simp [parts, hchars, partsOf_append]

/-- A slash adds the name behind it to the parts. -/
theorem parts_append_slash (text : String) (h : '/' ∉ name.toList) :
    parts ⟨text ++ "/" ++ name⟩ = parts ⟨text⟩ ++ [name] := by
  rw [parts_slash, parts_of_noSlash h]

/-- A text that ends in a slash, without that slash. -/
theorem exists_eq_append_slash (h : directory.endsInSlash = true) :
    ∃ text, directory.text = text ++ "/" := by
  have hlast : directory.text.toList.getLast? = some '/' := by simpa [endsInSlash] using h
  obtain ⟨chars, hchars⟩ := List.getLast?_eq_some_iff.mp hlast
  refine ⟨String.ofList chars, ?_⟩
  rw [← String.toList_inj]
  simp [hchars]

/-- The name is the last part, and the parts before it lead to the directory. -/
theorem parts_join (directory : Path) (h : '/' ∉ name.toList) :
    ∃ before, (directory.join name).parts = before ++ [name] ∧
      before.filterMap Step.ofPart? = directory.steps := by
  unfold join
  by_cases hempty : directory.text = ""
  · refine ⟨[], ?_, ?_⟩
    · simpa [hempty] using parts_of_noSlash h
    · simp [steps, parts, hempty, partsOf, Step.ofPart?]
  · by_cases hslash : directory.endsInSlash = true
    · obtain ⟨text, htext⟩ := exists_eq_append_slash hslash
      have hparts : directory.parts = parts ⟨text⟩ ++ [""] := by
        have hchars : '/' ∉ ("" : String).toList := by simp
        have happend := parts_append_slash text hchars
        rw [String.append_empty, ← htext] at happend
        exact happend
      refine ⟨parts ⟨text⟩, ?_, ?_⟩
      · simp only [hslash, Bool.or_true, if_true, htext]
        exact parts_append_slash text h
      · simp [steps, hparts, Step.ofPart?]
    · refine ⟨directory.parts, ?_, rfl⟩
      simp only [hempty, hslash, decide_false, Bool.or_self, Bool.false_eq_true, if_false]
      exact parts_append_slash directory.text h

theorem steps_join (h : Plain name) :
    (directory.join name).steps = directory.steps ++ [.into name] := by
  obtain ⟨before, hparts, hsteps⟩ := directory.parts_join h.noSlash
  rw [steps, hparts, List.filterMap_append, hsteps]
  simp [Step.ofPart?_of_plain h]

theorem lastPart?_join (h : Plain name) : (directory.join name).lastPart? = some name := by
  obtain ⟨before, hparts, -⟩ := directory.parts_join h.noSlash
  simp [lastPart?, hparts, List.filter_append, h.ne_empty]

theorem lastName?_join (h : Plain name) : (directory.join name).lastName? = some name := by
  simp [lastName?, lastPart?_join h, h.ne_here, h.ne_up]

theorem text_join (directory : Path) (name : String) :
    ∃ between, (directory.join name).text = directory.text ++ between ++ name := by
  unfold join
  split
  · exact ⟨"", by simp⟩
  · exact ⟨"/", rfl⟩

theorem size_join (directory : Path) (name : String) :
    directory.text.utf8ByteSize + name.utf8ByteSize ≤ (directory.join name).text.utf8ByteSize ∧
      (directory.join name).text.utf8ByteSize ≤
        directory.text.utf8ByteSize + name.utf8ByteSize + 1 := by
  have hslash : ("/" : String).utf8ByteSize = 1 := by decide
  unfold join
  split <;> simp only [String.utf8ByteSize_append, hslash] <;> omega

theorem mem_join {c : Char} (h : c ∈ (directory.join name).text.toList) :
    c ∈ directory.text.toList ∨ c = '/' ∨ c ∈ name.toList := by
  unfold join at h
  split at h
  · rw [String.toList_append, List.mem_append] at h
    exact h.imp_right Or.inr
  · simpa [or_assoc] using h

theorem endsInSlash_join (h : Plain name) : (directory.join name).endsInSlash = false := by
  obtain ⟨between, htext⟩ := directory.text_join name
  have hne : name.toList ≠ [] := by simpa using h.ne_empty
  have hlast : (directory.join name).text.toList.getLast? = some (name.toList.getLast hne) := by
    simp [htext, List.getLast?_append, List.getLast?_eq_some_getLast hne]
  simp only [endsInSlash, hlast, decide_eq_false_iff_not, Option.some_inj]
  intro heq
  apply h.noSlash
  rw [← heq]
  exact List.getLast_mem hne

theorem endsInDirectory_join (h : Plain name) : (directory.join name).endsInDirectory = false := by
  simp [endsInDirectory, endsInSlash_join h, lastPart?_join h, h.ne_here]

theorem isAbsolute_join (h : Plain name) :
    (directory.join name).isAbsolute = directory.isAbsolute := by
  by_cases hempty : directory.text = ""
  · have hhead : name.toList.head? ≠ some '/' := by
      intro heq
      exact h.noSlash (List.mem_of_mem_head? heq)
    simp [isAbsolute, join, hempty, hhead]
  · obtain ⟨between, htext⟩ := directory.text_join name
    have hne : directory.text.toList ≠ [] := by simpa using hempty
    simp [isAbsolute, htext, List.head?_append, List.head?_eq_some_head hne]

end Path

namespace FileSystem

open CamStream.Path

variable {files other : FileSystem} {directory : Path} {name : String}
  {start location parent : Location}

/-! ## Where the directories are -/

/-- The other file system has its directories where this one has them. -/
structure SameDirectories (files other : FileSystem) : Prop where
  workingDirectory : other.workingDirectory = files.workingDirectory
  isDirectoryAt (location : Location) : other.isDirectoryAt location = files.isDirectoryAt location

theorem SameDirectories.trans {last : FileSystem} (h : files.SameDirectories other)
    (hlast : other.SameDirectories last) : files.SameDirectories last where
  workingDirectory := hlast.workingDirectory.trans h.workingDirectory
  isDirectoryAt location := (hlast.isDirectoryAt location).trans (h.isDirectoryAt location)

theorem SameDirectories.symm (h : files.SameDirectories other) : other.SameDirectories files where
  workingDirectory := h.workingDirectory.symm
  isDirectoryAt location := (h.isDirectoryAt location).symm

theorem SameDirectories.origin (h : files.SameDirectories other) (path : Path) :
    other.origin path = files.origin path := by
  simp [FileSystem.origin, h.workingDirectory]

theorem step_into_eq_ok_iff {next : Location} :
    files.step start (.into name) = .ok next ↔ files.isDirectoryAt start = true ∧
      name.utf8ByteSize ≤ maxNameSize ∧ next = start ++ [name] ∧
      (files.node? next).isSome = true := by
  unfold step
  by_cases hdirectory : files.isDirectoryAt start = true
  · by_cases hlong : maxNameSize < name.utf8ByteSize
    · have hfits : ¬ name.utf8ByteSize ≤ maxNameSize := Nat.not_le.mpr hlong
      simp [hdirectory, hlong, hfits]
    · have hfits : name.utf8ByteSize ≤ maxNameSize := Nat.le_of_not_lt hlong
      by_cases hthere : (files.node? (start ++ [name])).isSome = true
      · simp only [hdirectory, hlong, hthere, hfits, if_true, if_false, Except.ok.injEq, true_and]
        constructor
        · rintro rfl
          exact ⟨rfl, hthere⟩
        · exact fun h => h.1.symm
      · simp only [hdirectory, hlong, hthere, hfits, if_true, if_false, true_and]
        constructor
        · intro h
          cases h
        · rintro ⟨rfl, h⟩
          exact absurd h hthere
  · simp [hdirectory]

theorem step_up_eq_ok_iff {next : Location} :
    files.step start .up = .ok next ↔
      files.isDirectoryAt start = true ∧ next = start.dropLast := by
  unfold step
  by_cases hdirectory : files.isDirectoryAt start = true <;> simp [hdirectory, eq_comm]

theorem isSome_node?_of_isDirectoryAt (h : files.isDirectoryAt location = true) :
    (files.node? location).isSome = true := by
  unfold isDirectoryAt at h
  cases hnode : files.node? location with
  | none => simp [hnode] at h
  | some node => rfl

theorem walk_append (files : FileSystem) (start : Location) (steps more : List Step) :
    files.walk start (steps ++ more) =
      (files.walk start steps >>= fun between => files.walk between more) := by
  induction steps generalizing start with
  | nil => rfl
  | cons step steps ih =>
    simp only [List.cons_append, walk, ih, bind_assoc]

/-- Only from a directory is there a step. -/
theorem isDirectoryAt_of_step {step : Step}
    (h : files.step start step = .ok location) : files.isDirectoryAt start = true := by
  cases step with
  | up => exact (step_up_eq_ok_iff.mp h).1
  | into name => exact (step_into_eq_ok_iff.mp h).1

/-- Only directories are left on a walk to a directory, the one where it starts included. -/
theorem isDirectoryAt_of_walk {steps : List Step} (h : files.walk start steps = .ok location)
    (hlast : files.isDirectoryAt location = true) : files.isDirectoryAt start = true := by
  cases steps with
  | nil =>
    cases h
    exact hlast
  | cons step steps =>
    obtain ⟨next, hstep, -⟩ := bind_eq_ok_iff.mp h
    exact isDirectoryAt_of_step hstep

/-- More directories do not lead astray. -/
theorem walk_of_more (hmore : ∀ location, files.isDirectoryAt location = true →
    other.isDirectoryAt location = true) {steps : List Step}
    (hwalk : files.walk start steps = .ok location)
    (hlast : files.isDirectoryAt location = true) : other.walk start steps = .ok location := by
  induction steps generalizing start with
  | nil => exact hwalk
  | cons step steps ih =>
    obtain ⟨next, hstep, hrest⟩ := bind_eq_ok_iff.mp hwalk
    refine bind_eq_ok_iff.mpr ⟨next, ?_, ih hrest⟩
    cases step with
    | up =>
      rw [step_up_eq_ok_iff] at hstep ⊢
      exact ⟨hmore _ hstep.1, hstep.2⟩
    | into name =>
      rw [step_into_eq_ok_iff] at hstep ⊢
      -- The walk goes on from there or ends there, so this is a directory in both.
      have hnext := hmore _ (isDirectoryAt_of_walk hrest hlast)
      exact ⟨hmore _ hstep.1, hstep.2.1, hstep.2.2.1, isSome_node?_of_isDirectoryAt hnext⟩

theorem SameDirectories.walk (h : files.SameDirectories other) {steps : List Step}
    (hwalk : files.walk start steps = .ok location)
    (hlast : files.isDirectoryAt location = true) : other.walk start steps = .ok location :=
  walk_of_more (fun place hplace => (h.isDirectoryAt place).trans hplace) hwalk hlast

theorem ne_root_of_not_isDirectoryAt (h : files.isDirectoryAt location = false) :
    location ≠ [] := by
  rintro rfl
  cases h

/-- Something else in one place, where neither file system has a directory. -/
theorem sameDirectories_of_node? (h : files.isDirectoryAt location = false) {there : Option Node}
    (hthere : there.any (·.isDirectory) = false)
    (hworking : other.workingDirectory = files.workingDirectory)
    (hnodes : ∀ place,
      other.node? place = if place = location then there else files.node? place) :
    files.SameDirectories other where
  workingDirectory := hworking
  isDirectoryAt place := by
    unfold isDirectoryAt at h ⊢
    rw [hnodes]
    split
    · rename_i hplace
      rw [hplace, h, hthere]
    · rfl

theorem sameDirectories_put (h : files.isDirectoryAt location = false) (number : Nat)
    (bytes : Bytes) : files.SameDirectories (files.put location (.file number bytes)) :=
  sameDirectories_of_node? h rfl rfl (node?_put files _ (ne_root_of_not_isDirectoryAt h))

theorem sameDirectories_remove (h : files.isDirectoryAt location = false) :
    files.SameDirectories (files.remove location) :=
  sameDirectories_of_node? h rfl rfl (node?_remove files (ne_root_of_not_isDirectoryAt h))

/-- What a write through a handle makes of a node. -/
def rewritten (handle : Handle) (bytes : Bytes) : Node → Node
  | .file number contents =>
    if number = handle.number then .file number (overwrite contents handle.position bytes)
    else .file number contents
  | .directory mode => .directory mode

theorem isDirectory_rewritten (handle : Handle) (bytes : Bytes) (node : Node) :
    (rewritten handle bytes node).isDirectory = node.isDirectory := by
  cases node with
  | file number contents =>
    dsimp only [rewritten]
    split <;> rfl
  | directory mode => rfl

theorem nodes_write (files : FileSystem) (handle : Handle) (bytes : Bytes) :
    (files.write handle bytes).2.nodes =
      files.nodes.map fun entry => (entry.1, rewritten handle bytes entry.2) := by
  refine List.map_congr_left fun entry _ => ?_
  obtain ⟨place, node⟩ := entry
  cases node with
  | file number contents =>
    dsimp only [rewritten]
    split <;> rfl
  | directory mode => rfl

theorem node?_write (files : FileSystem) (handle : Handle) (bytes : Bytes) (location : Location) :
    (files.write handle bytes).2.node? location =
      (files.node? location).map (rewritten handle bytes) := by
  unfold node?
  split
  · rfl
  · rw [nodes_write]
    exact KeyedList.get?_map _ _ _

theorem sameDirectories_write (files : FileSystem) (handle : Handle) (bytes : Bytes) :
    files.SameDirectories (files.write handle bytes).2 where
  workingDirectory := rfl
  isDirectoryAt location := by
    simp [isDirectoryAt, node?_write, Option.any_map, isDirectory_rewritten]

/-- What is written to an empty file is its contents. -/
theorem node?_write_created {handle : Handle} (hposition : handle.position = 0)
    (h : files.node? location = some (.file handle.number [])) (bytes : Bytes) :
    (files.write handle bytes).2.node? location = some (.file handle.number bytes) := by
  rw [node?_write, h]
  simp [rewritten, overwrite, hposition]

/-! ## Places for files -/

theorem checkPath_eq_ok_iff {path : Path} :
    checkPath path = .ok () ↔ '\x00' ∉ path.text.toList ∧ path.text ≠ "" ∧
      path.text.utf8ByteSize ≤ maxPathSize := by
  unfold checkPath pathFault?
  grind

/-- A directory can be named if an entry in it can be, unless its path is empty. -/
theorem checkPath_of_join (h : checkPath (directory.join name) = .ok ())
    (hempty : directory.text ≠ "") : checkPath directory = .ok () := by
  obtain ⟨between, htext⟩ := directory.text_join name
  rw [checkPath_eq_ok_iff, htext] at h
  obtain ⟨hnul, -, hsize⟩ := h
  simp only [String.toList_append, String.utf8ByteSize_append, List.mem_append, not_or] at hnul hsize
  exact checkPath_eq_ok_iff.mpr ⟨hnul.1.1, hempty, by omega⟩

theorem origin_join (files : FileSystem) (directory : Path) (h : Plain name) :
    files.origin (directory.join name) = files.origin directory := by
  simp [origin, isAbsolute_join h]

theorem locateEntry_eq_ok_iff {path : Path} {entry : Location × Option String} :
    files.locateEntry path = .ok entry ↔ checkPath path = .ok () ∧
      files.walk (files.origin path)
        (if path.lastName?.isSome then path.steps.dropLast else path.steps) = .ok entry.1 ∧
      files.isDirectoryAt entry.1 = true ∧ entry.2 = path.lastName? := by
  simp only [locateEntry, bind_eq_ok_iff]
  constructor
  · rintro ⟨⟨⟩, hpath, parent, hwalk, hentry⟩
    cases hdirectory : files.isDirectoryAt parent with
    | false =>
      rw [hdirectory] at hentry
      cases hentry
    | true =>
      rw [hdirectory] at hentry
      cases hentry
      exact ⟨hpath, hwalk, hdirectory, rfl⟩
  · rintro ⟨hpath, hwalk, hdirectory, hname⟩
    refine ⟨(), hpath, entry.1, hwalk, ?_⟩
    rw [hdirectory, ← hname]
    rfl

theorem locateEntry_join_eq_ok_iff (h : Plain name) {entry : Location × Option String} :
    files.locateEntry (directory.join name) = .ok entry ↔
      checkPath (directory.join name) = .ok () ∧
      files.walk (files.origin directory) directory.steps = .ok entry.1 ∧
      files.isDirectoryAt entry.1 = true ∧ entry.2 = some name := by
  simp only [locateEntry_eq_ok_iff, lastName?_join h, steps_join h, origin_join files directory h,
    Option.isSome_some, if_true, List.dropLast_concat]

theorem entryLocation_eq_ok_iff :
    entryLocation parent name = .ok location ↔
      name.utf8ByteSize ≤ maxNameSize ∧ location = parent ++ [name] := by
  unfold entryLocation
  by_cases hlong : maxNameSize < name.utf8ByteSize
  · simp [hlong, Nat.not_le.mpr hlong]
  · simp [hlong, Nat.le_of_not_lt hlong, eq_comm]

/-- A name in a directory that a file can have: the directory is there, and it does not hold another
directory of that name. -/
structure Place (files : FileSystem) (directory : Path) (name : String) (parent : Location) :
    Prop where
  plain : Plain name
  path : checkPath (directory.join name) = .ok ()
  walk : files.walk (files.origin directory) directory.steps = .ok parent
  isDirectory : files.isDirectoryAt parent = true
  fits : name.utf8ByteSize ≤ maxNameSize
  free : files.isDirectoryAt (parent ++ [name]) = false

namespace Place

theorem same (h : Place files directory name parent) (hsame : files.SameDirectories other) :
    Place other directory name parent where
  plain := h.plain
  path := h.path
  walk := by
    rw [hsame.origin]
    exact hsame.walk h.walk h.isDirectory
  isDirectory := (hsame.isDirectoryAt parent).trans h.isDirectory
  fits := h.fits
  free := (hsame.isDirectoryAt _).trans h.free

variable (h : Place files directory name parent)

include h

theorem parent_eq {second : String} {other : Location}
    (hother : Place files directory second other) : other = parent := by
  have hwalk := hother.walk
  rw [h.walk] at hwalk
  cases hwalk
  rfl

theorem entryLocation : FileSystem.entryLocation parent name = .ok (parent ++ [name]) :=
  entryLocation_eq_ok_iff.mpr ⟨h.fits, rfl⟩

/-- The path of the directory leads to it, unless that path is empty. -/
theorem isDirectory_path (hempty : directory.text ≠ "") : files.isDirectory directory = true := by
  have hlocate : files.locate directory = .ok parent := by
    simp only [FileSystem.locate, checkPath_of_join h.path hempty, h.walk, bind, Except.bind,
      h.isDirectory, Bool.not_true, Bool.and_false, Bool.false_eq_true, if_false]
    rfl
  simp only [FileSystem.isDirectory, hlocate, h.isDirectory]

theorem locateEntry : files.locateEntry (directory.join name) = .ok (parent, some name) :=
  (locateEntry_join_eq_ok_iff h.plain).mpr ⟨h.path, h.walk, h.isDirectory, rfl⟩

theorem locate (hthere : (files.node? (parent ++ [name])).isSome = true) :
    files.locate (directory.join name) = .ok (parent ++ [name]) := by
  have horigin := origin_join files directory h.plain
  have hstep : files.step parent (.into name) = .ok (parent ++ [name]) :=
    step_into_eq_ok_iff.mpr ⟨h.isDirectory, h.fits, rfl, hthere⟩
  have hwalk : files.walk (files.origin directory) (directory.join name).steps =
      .ok (parent ++ [name]) := by
    rw [steps_join h.plain, walk_append, bind_eq_ok_iff]
    exact ⟨parent, h.walk, bind_eq_ok_iff.mpr ⟨_, hstep, rfl⟩⟩
  simp only [FileSystem.locate, h.path, horigin, hwalk, endsInDirectory_join h.plain]
  rfl

theorem read {number : Nat} {bytes : Bytes}
    (hnode : files.node? (parent ++ [name]) = some (.file number bytes)) :
    files.read (directory.join name) = .ok bytes := by
  have hlocate := h.locate (by rw [hnode]; rfl)
  rw [FileSystem.read, hlocate]
  simp only [bind, Except.bind, hnode]

/-- A file can be made at a place. -/
theorem create :
    ∃ handle next, files.create (directory.join name) = .ok (handle, next) ∧
      handle.position = 0 ∧ files.SameDirectories next ∧
      next.node? (parent ++ [name]) = some (.file handle.number []) := by
  have hroot := ne_root_of_not_isDirectoryAt h.free
  cases hnode : files.node? (parent ++ [name]) with
  | none =>
    have hput := sameDirectories_put h.free files.nextNumber []
    refine ⟨{ number := files.nextNumber },
      { files.put (parent ++ [name]) (.file files.nextNumber []) with
        nextNumber := files.nextNumber + 1 }, ?_, rfl, ⟨rfl, hput.isDirectoryAt⟩, ?_⟩
    · simp only [FileSystem.create, h.locateEntry, endsInSlash_join h.plain, bind, Except.bind,
        h.entryLocation, hnode]
      rfl
    · exact (node?_put files _ hroot _).trans (if_pos rfl)
  | some node =>
    cases node with
    | directory mode =>
      have hfree := h.free
      simp [isDirectoryAt, hnode, Node.isDirectory] at hfree
    | file number contents =>
      refine ⟨{ number }, files.put (parent ++ [name]) (.file number []), ?_, rfl,
        sameDirectories_put h.free number [], (node?_put files _ hroot _).trans (if_pos rfl)⟩
      simp only [FileSystem.create, h.locateEntry, endsInSlash_join h.plain, bind, Except.bind,
        h.entryLocation, hnode]
      rfl

/-- A file can be moved from one place of a directory to another. -/
theorem rename {target : String} (htarget : Place files directory target parent) {number : Nat}
    {bytes : Bytes}
    (hnode : files.node? (parent ++ [name]) = some (.file number bytes)) :
    ∃ next, files.rename (directory.join name) (directory.join target) = .ok next ∧
      files.SameDirectories next ∧
      next.node? (parent ++ [target]) = some (.file number bytes) := by
  -- The file is taken away first and put back afterwards, so the two places may be the same.
  have hremove := sameDirectories_remove h.free
  have hplace := htarget.same hremove
  have hroot := ne_root_of_not_isDirectoryAt htarget.free
  refine ⟨(files.remove (parent ++ [name])).put (parent ++ [target]) (.file number bytes), ?_,
    hremove.trans (sameDirectories_put hplace.free number bytes),
    (node?_put _ _ hroot _).trans (if_pos rfl)⟩
  have hlocate := h.locate (by rw [hnode]; rfl)
  simp only [FileSystem.rename, hlocate, htarget.locateEntry, bind, Except.bind,
    htarget.entryLocation, htarget.free, hnode]
  rfl

end Place

/-- A file is made only at a place. -/
theorem place_of_create (hplain : Plain name) {result : Handle × FileSystem}
    (h : files.create (directory.join name) = .ok result) :
    ∃ parent, Place files directory name parent := by
  obtain ⟨⟨parent, name?⟩, hentry, h⟩ := bind_eq_ok_iff.mp h
  obtain ⟨hpath, hwalk, hdirectory, rfl⟩ := (locateEntry_join_eq_ok_iff hplain).mp hentry
  simp only [endsInSlash_join hplain, Bool.false_eq_true, if_false, bind_eq_ok_iff,
    entryLocation_eq_ok_iff] at h
  obtain ⟨location, ⟨hfits, rfl⟩, h⟩ := h
  refine ⟨parent, hplain, hpath, hwalk, hdirectory, hfits, ?_⟩
  unfold isDirectoryAt
  cases hnode : files.node? (parent ++ [name]) with
  | none => rfl
  | some node =>
    cases node with
    | file number bytes => rfl
    | directory mode =>
      rw [hnode] at h
      cases h

/-- A file is moved only to a place. -/
theorem place_of_rename (hplain : Plain name) {source : Path} {next : FileSystem}
    (h : files.rename source (directory.join name) = .ok next) :
    ∃ parent, Place files directory name parent := by
  obtain ⟨sourceLocation, -, h⟩ := bind_eq_ok_iff.mp h
  obtain ⟨⟨parent, name?⟩, hentry, h⟩ := bind_eq_ok_iff.mp h
  obtain ⟨hpath, hwalk, hdirectory, rfl⟩ := (locateEntry_join_eq_ok_iff hplain).mp hentry
  obtain ⟨location, hlocation, h⟩ := bind_eq_ok_iff.mp h
  obtain ⟨hfits, rfl⟩ := entryLocation_eq_ok_iff.mp hlocation
  refine ⟨parent, hplain, hpath, hwalk, hdirectory, hfits, ?_⟩
  cases hfree : files.isDirectoryAt (parent ++ [name]) with
  | false => rfl
  | true =>
    rw [hfree] at h
    cases h

end FileSystem

end CamStream
